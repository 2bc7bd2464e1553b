import DpdkBeginners.Lib.Compact
import DpdkBeginners.Napt.Effect
import DpdkBeginners.Rte.TxBurst

/-!
# The main loop of `nat_project/version6`

An iteration of the main loop compacts the burst in place while it reads it, offers the front part of the
array, and frees the rest of the front part from the same array.

The results hold for every `process`, of which `natProcess` is the one of the program: whatever the calls of
`nat_process_packet` return and however many packets are accepted, each mbuf is given away once
(`version6_burst`).
-/

namespace DpdkBeginners.Forwarding

open DpdkBeginners.Rte DpdkBeginners.Lib

variable {ι σ : Type*}

/-! ### One iteration -/

section Iteration

variable (process : σ → ι → σ × Int) (tx : TxQueue ι)

/-- The body of the loop over the burst: the mbufs freed so far are carried along, and the answer is whether
the mbuf is written back to the array. -/
def processOne (t : σ × List (MbufOp ι)) (m : ι) : (σ × List (MbufOp ι)) × Bool :=
  let (s, ret) := process t.1 m
  if ret = 0 then ((s, t.2), true) else ((s, t.2 ++ [.free m]), false)

/-- An iteration of the main loop of `version6`, without `nat_timer_manage`. -/
def version6Iteration (s : σ) (bufs : List ι) : σ × List (MbufOp ι) :=
  if bufs.length = 0 then (s, [])
  else
    let ((s, frees), bufs, txCount) := compact (processOne process) (s, []) bufs
    let sent := tx.burst (bufs.take txCount)
    let unsent := if sent < txCount then freeFrom bufs sent (txCount - sent) else []
    (s, frees ++ tx.send (bufs.take txCount) :: unsent)

/-- The mbufs of a burst in the order of their arrival, each with what `process` returns for it. -/
def results (s : σ) : List ι → List (ι × Int)
  | [] => []
  | m :: bufs => (m, (process s m).2) :: results (process s m).1 bufs

/-- The mbufs to be sent on. -/
def forwarded (s : σ) (bufs : List ι) : List ι :=
  ((results process s bufs).filter fun x => x.2 = 0).map Prod.fst

/-- The mbufs to be dropped. -/
def rejected (s : σ) (bufs : List ι) : List ι :=
  ((results process s bufs).filter fun x => x.2 ≠ 0).map Prod.fst

end Iteration

variable {process : σ → ι → σ × Int} {tx : TxQueue ι}

/-! ### What is offered and what is freed -/

theorem forwarded_rejected_perm (s : σ) (bufs : List ι) :
    (forwarded process s bufs ++ rejected process s bufs).Perm bufs := by
  have hfst : ∀ s, (results process s bufs).map Prod.fst = bufs := by
    induction bufs with
    | nil => exact fun _ => rfl
    | cons m bufs ih =>
      intro s
      rw [results, List.map_cons, ih]
  have hsplit := List.filter_append_perm (fun x : ι × Int => x.2 = 0) (results process s bufs)
  have hmap := hsplit.map Prod.fst
  rw [List.map_append, hfst] at hmap
  simpa [forwarded, rejected] using hmap

/-- The loop over the burst keeps the mbufs to be sent on and frees the others. -/
theorem sift_processOne (s : σ) (frees : List (MbufOp ι)) (bufs : List ι) :
    (sift (processOne process) (s, frees) bufs).2 = forwarded process s bufs ∧
      (sift (processOne process) (s, frees) bufs).1.2 =
        frees ++ (rejected process s bufs).map .free := by
  induction bufs generalizing s frees with
  | nil => simp [sift, forwarded, rejected, results]
  | cons m bufs ih =>
    by_cases hret : (process s m).2 = 0
    · obtain ⟨hfront, hfrees⟩ := ih (process s m).1 frees
      have hone : processOne process (s, frees) m = (((process s m).1, frees), true) := if_pos hret
      refine ⟨?_, ?_⟩
      · simp only [sift, hone, hfront, if_true]
        simp [forwarded, results, hret]
      · simp only [sift, hone, hfrees]
        simp [rejected, results, hret]
    · obtain ⟨hfront, hfrees⟩ := ih (process s m).1 (frees ++ [.free m])
      have hone : processOne process (s, frees) m =
          (((process s m).1, frees ++ [.free m]), false) := if_neg hret
      refine ⟨?_, ?_⟩
      · simp only [sift, hone, hfront]
        simp [forwarded, results, hret]
      · simp only [sift, hone, hfrees]
        simp [rejected, results, hret]

/-- **The calls of an iteration**: the drops, one offer of the packets that are sent on, in the order of their
arrival, and the frees of those that are not accepted. -/
theorem version6Iteration_ops (s : σ) (bufs : List ι) :
    (version6Iteration process tx s bufs).2 =
      if bufs.length = 0 then []
      else (rejected process s bufs).map .free ++ tx.send (forwarded process s bufs) ::
        ((forwarded process s bufs).drop (tx.burst (forwarded process s bufs))).map .free := by
  unfold version6Iteration
  by_cases hlen : bufs.length = 0
  · rw [if_pos hlen, if_pos hlen]
  · rw [if_neg hlen, if_neg hlen]
    obtain ⟨hkept, hfrees⟩ := @sift_processOne _ _ process s [] bufs
    have hstate := @compact_state _ _ (processOne process) (s, []) bufs
    have hfront := @compact_front _ _ (processOne process) (s, []) bufs
    have hout := @compact_out _ _ (processOne process) (s, []) bufs
    rw [hkept] at hfront hout
    generalize compact (processOne process) (s, []) bufs = t at hstate hfront hout ⊢
    obtain ⟨⟨s', frees⟩, ys, txCount⟩ := t
    simp only at hstate hfront hout ⊢
    rw [← hstate, List.nil_append] at hfrees
    rw [hfront, show frees = _ from hfrees]
    congr 2
    split_ifs with hsent
    · rw [freeFrom_eq, ← List.drop_take, hfront]
    · rw [List.drop_eq_nil_of_le (by omega)]
      rfl

/-! ### Ownership -/

/-- **A burst of `version6`.**  Whatever `nat_process_packet` returns and however many packets are accepted,
the packets offered are those that are sent on, in the order of their arrival, and each mbuf is transmitted
or freed, once. -/
theorem version6_burst [DecidableEq ι] (process : σ → ι → σ × Int) (tx : TxQueue ι) (s : σ)
    {bufs : List ι} (hnodup : bufs.Nodup) :
    (version6Iteration process tx s bufs).2.flatMap MbufOp.offered = forwarded process s bufs ∧
      OwnedOnce bufs (version6Iteration process tx s bufs).2 := by
  have hperm := @forwarded_rejected_perm _ _ process s bufs
  rw [version6Iteration_ops]
  by_cases hlen : bufs.length = 0
  · obtain rfl := List.length_eq_zero_iff.1 hlen
    exact ⟨rfl, fun m hm => absurd hm (by simp)⟩
  · rw [if_neg hlen]
    rw [← sendOrFree_eq]
    refine ⟨?_, ?_⟩
    · rw [List.flatMap_append, offered_frees, offered_sendOrFree, List.nil_append]
    · intro m hm
      have hone : bufs.count m = 1 := List.count_eq_one_of_mem hnodup hm
      rw [← hperm.count_eq, List.count_append] at hone
      -- what is accepted and what is freed make up what is sent on
      have hsplit := congrArg (List.count m)
        (List.take_append_drop (tx.burst (forwarded process s bufs)) (forwarded process s bufs))
      rw [List.count_append] at hsplit
      rw [List.flatMap_append, List.flatMap_append, accepted_frees, accepted_sendOrFree, freed_frees,
        freed_sendOrFree, List.nil_append, List.count_append]
      omega

/-! ### The program -/

section Program

open DpdkBeginners.Napt

/-- A call of `nat_process_packet` on the mbuf `m`, in a NAT and the packets that the mbufs hold; each call has
its own clock reading and outcome.  In the states that a run reaches no call reads an entry that is not
allocated. -/
def natProcess [DecidableEq ι] (E : Env) (env : ι → ℕ × Outcome) (t : NatState × (ι → Mbuf)) (m : ι) :
    (NatState × (ι → Mbuf)) × Int :=
  match natProcessPacket E (env m).1 (env m).2 t.1 (t.2 m) with
  | none => (t, -1)
  | some r => ((r.state, Function.update t.2 m r.mbuf), r.ret)

/-- A transmit queue that has room for one packet. -/
def narrowQueue : TxQueue ι where
  burst bufs := min 1 bufs.length
  burst_le _ := Nat.min_le_right ..

/-- A burst of two packets of `flowA` and one that is dropped, of which one packet is accepted. -/
theorem version6_burst_flowA :
    let process := natProcess ghz fun _ : Fin 3 => (0, success 0)
    let s := (natInit mainPublicIp, fun i => if i = 1 then l4Base 1 else keyFrame flowA)
    let ops := (version6Iteration process narrowQueue s [0, 1, 2]).2
    ops.flatMap MbufOp.offered = forwarded process s [0, 1, 2] ∧ OwnedOnce [0, 1, 2] ops :=
  version6_burst _ narrowQueue _ (by decide)

end Program

end DpdkBeginners.Forwarding
