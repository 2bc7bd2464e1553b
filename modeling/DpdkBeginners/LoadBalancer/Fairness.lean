import DpdkBeginners.LoadBalancer.Backends
import DpdkBeginners.Lib.Run
import DpdkBeginners.Rte.TxBurst
import Mathlib.Algebra.BigOperators.Fin

/-!
# Fairness of the load balancer

The `k`-th TCP or UDP packet goes to the backend `k % n_backends`, so after `k` of them the backend `j` has
been hit once for each `i < k` with `i % n_backends = j`, which is `turns k j` times.  Everything about the
counters follows from that number: they add up to `k`, and no two of them differ by more than one.

`iteration` is one iteration of the loop of `lcore_main` with the calls that give its mbufs away.
-/

namespace DpdkBeginners.LoadBalancer

open DpdkBeginners.Rte DpdkBeginners.Lib

variable {E : Env} {lb : Lb} {m : Mbuf} {pkts : List Mbuf} {k : ℕ} {ι : Type*}

/-! ### The loop -/

/-- `BURST_SIZE`. -/
def burstSize : ℕ := 32

/-- One iteration of the loop of `lcore_main`, for the mbufs that `rte_eth_rx_burst` returns: the static
variables after it, the packets as they are offered, and the mbufs that are given away. -/
def iteration (E : Env) (tx : TxQueue ι) (bufs : List (ι × Mbuf)) (lb : Lb) :
    Lb × List Mbuf × List (MbufOp ι) :=
  if bufs.length = 0 then (lb, [], [])
  else
    let (lb, pkts) := rewriteBurst E lb (bufs.map Prod.snd)
    (lb, pkts, sendOrFree tx (bufs.map Prod.fst))

/-- A burst has at most `BURST_SIZE` mbufs, which are different ones. -/
structure IsBurst (bufs : List (ι × Mbuf)) : Prop where
  le : bufs.length ≤ burstSize
  nodup : (bufs.map Prod.fst).Nodup

/-- An iteration as a step: the burst received and the answers of the transmit queue. -/
def Step (E : Env) (lb : Lb) (ev : List (ι × Mbuf) × TxQueue ι) (lb' : Lb) : Prop :=
  IsBurst ev.1 ∧ (iteration E ev.2 ev.1 lb).1 = lb'

/-- The packets received in a run. -/
def received (evs : List (List (ι × Mbuf) × TxQueue ι)) : List Mbuf :=
  evs.flatMap fun ev => ev.1.map Prod.snd

/-- How many of them are balanced. -/
def eligible (pkts : List Mbuf) : ℕ := pkts.countP IsL4

theorem iteration_fst (E : Env) (tx : TxQueue ι) (bufs : List (ι × Mbuf)) (lb : Lb) :
    (iteration E tx bufs lb).1 = (rewriteBurst E lb (bufs.map Prod.snd)).1 := by
  unfold iteration
  by_cases hlen : bufs.length = 0
  · obtain rfl := List.length_eq_zero_iff.1 hlen
    rfl
  · rw [if_neg hlen]

theorem run_rewriteBurst {evs : List (List (ι × Mbuf) × TxQueue ι)} (h : Run (Step E) initLb evs lb) :
    lb = (rewriteBurst E initLb (received evs)).1 := by
  induction h with
  | refl => rfl
  | @snoc t u es ev _ hstep ih =>
    have hadd : received (es ++ [ev]) = received es ++ ev.1.map Prod.snd := by simp [received]
    rw [← hstep.2, iteration_fst, hadd, rewriteBurst_append, ih]

/-! ### The counters -/

/-- How many `i < k` have `i % n_backends = j`. -/
def turns (k : ℕ) (j : Fin nBackends) : ℕ := (k + (nBackends - 1 - j)) / nBackends

/-- **The state after `k` balanced packets.** -/
structure Turned (k : ℕ) (lb : Lb) : Prop where
  next : lb.nextBackend.toNat = k % nBackends
  hits : ∀ j, lb.backendHits j = BitVec.ofNat 64 (turns k j)

theorem turned_initLb : Turned 0 initLb where
  next := rfl
  hits := by decide

theorem turns_succ (k : ℕ) (j : Fin nBackends) :
    turns (k + 1) j = turns k j + if j.val = k % nBackends then 1 else 0 := by
  have hj := j.isLt
  unfold turns nBackends at *
  split_ifs <;> omega

theorem Turned.count (h : Turned k lb) : Turned (k + 1) lb.count where
  next := by
    have hnext : lb.count.nextBackend.toNat = (lb.nextBackend.toNat + 1) % nBackends :=
      advance_toNat lb.inRange
    rw [hnext, h.next, Nat.mod_add_mod]
  hits j := by
    have hsel : lb.selected.val = k % nBackends := h.next
    show Function.update lb.backendHits lb.selected (lb.backendHits lb.selected + 1) j = _
    rw [turns_succ]
    by_cases hj : j = lb.selected
    · rw [hj, Function.update_self, h.hits, if_pos hsel, BitVec.ofNat_add]
      rfl
    · have hne : j.val ≠ k % nBackends := fun hval => hj (Fin.ext (hval.trans hsel.symm))
      rw [Function.update_of_ne hj, h.hits, if_neg hne, Nat.add_zero]

theorem Turned.rewriteBurst (h : Turned k lb) (pkts : List Mbuf) :
    Turned (k + eligible pkts) (rewriteBurst E lb pkts).1 := by
  induction pkts generalizing lb k with
  | nil => exact h
  | cons m pkts ih =>
    by_cases hm : IsL4 m
    · have hcount : k + eligible (m :: pkts) = k + 1 + eligible pkts := by
        rw [eligible, List.countP_cons_of_pos (by simpa using hm), eligible]
        omega
      simp only [LoadBalancer.rewriteBurst, rewriteL4Packet_l4 hm, hcount]
      exact ih h.count
    · have hcount : eligible (m :: pkts) = eligible pkts := by
        rw [eligible, List.countP_cons_of_neg (by simpa using hm), eligible]
      simp only [LoadBalancer.rewriteBurst, rewriteL4Packet_other hm, hcount]
      exact ih h

/-! ### Fairness -/

/-- The counters after `k` balanced packets: their sum is `k`, and no two are further apart than one; and the
next backend is in turn. -/
structure Fair (k : ℕ) (lb : Lb) : Prop where
  total : ∑ j, (lb.backendHits j).toNat = k
  even : ∀ i j, (lb.backendHits i).toNat ≤ (lb.backendHits j).toNat + 1
  next : lb.nextBackend.toNat = k % nBackends
  inRange : lb.nextBackend.toNat < nBackends

theorem Turned.fair (h : Turned k lb) (hk : k < 2 ^ 64) : Fair k lb := by
  have hhits : ∀ j, (lb.backendHits j).toNat = turns k j := by
    intro j
    have hle : turns k j < 2 ^ 64 := by
      unfold turns nBackends
      omega
    rw [h.hits, BitVec.toNat_ofNat, Nat.mod_eq_of_lt hle]
  refine ⟨?_, ?_, h.next, lb.inRange⟩
  · simp only [hhits, Fin.sum_univ_three, turns, nBackends]
    show (k + 2) / 3 + (k + 1) / 3 + (k + 0) / 3 = k
    omega
  · intro i j
    have hi := i.isLt
    have hj := j.isLt
    rw [hhits, hhits]
    unfold turns nBackends at *
    omega

/-- **Round robin is fair.**  In every run, after any packet of any burst: when `k` packets have been
balanced so far, the hits add up to `k`, no two backends are further apart than one, and the next one is
`k % n_backends`; a packet that is not balanced yields -1, is left as it is and changes no variable; and each
mbuf of the burst is transmitted or freed, once, whatever the queue accepts. -/
theorem round_robin_fair [DecidableEq ι] {evs : List (List (ι × Mbuf) × TxQueue ι)}
    {bufs : List (ι × Mbuf)} {pre post : List Mbuf} (h : Run (Step E) initLb evs lb) (hb : IsBurst bufs)
    (hpre : bufs.map Prod.snd = pre ++ post) (hk : eligible (received evs ++ pre) < 2 ^ 64)
    (tx : TxQueue ι) :
    Fair (eligible (received evs ++ pre)) (rewriteBurst E lb pre).1 ∧
    (∀ m, ¬ IsL4 m →
      rewriteL4Packet E (rewriteBurst E lb pre).1 m = ((rewriteBurst E lb pre).1, m, -1)) ∧
    OwnedOnce (bufs.map Prod.fst) (iteration E tx bufs lb).2.2 := by
  refine ⟨?_, fun m hm => rewriteL4Packet_other hm, ?_⟩
  · have hturned : Turned (0 + eligible (received evs ++ pre))
        (rewriteBurst E initLb (received evs ++ pre)).1 := turned_initLb.rewriteBurst _
    rw [Nat.zero_add, rewriteBurst_append, ← run_rewriteBurst h] at hturned
    exact hturned.fair hk
  · unfold iteration
    by_cases hlen : bufs.length = 0
    · obtain rfl := List.length_eq_zero_iff.1 hlen
      exact fun m hm => absurd hm (by simp)
    · rw [if_neg hlen]
      exact ownedOnce_sendOrFree tx hb.nodup

/-- Two packets for two backends, of which the queue accepts one. -/
theorem round_robin_fair_webFrames :
    let bufs : List (Fin 2 × Mbuf) := [(0, webFrame), (1, webFrame)]
    Fair 2 (rewriteBurst ghz initLb (bufs.map Prod.snd)).1 ∧
      OwnedOnce [0, 1] (iteration ghz ⟨fun bufs => min 1 bufs.length, fun _ => Nat.min_le_right ..⟩
        bufs initLb).2.2 := by
  have htwo : eligible [webFrame, webFrame] = 2 := by simp [eligible, isL4_webFrame]
  have hk : eligible [webFrame, webFrame] < 2 ^ 64 := by
    rw [htwo]
    decide
  have h := @round_robin_fair ghz _ (Fin 2) _ [] [(0, webFrame), (1, webFrame)] [webFrame, webFrame] []
    .refl ⟨by decide, by decide⟩ rfl hk ⟨fun bufs => min 1 bufs.length, fun _ => Nat.min_le_right ..⟩
  rw [show received _ ++ [webFrame, webFrame] = [webFrame, webFrame] from rfl, htwo] at h
  exact ⟨h.1, h.2.2⟩

end DpdkBeginners.LoadBalancer
