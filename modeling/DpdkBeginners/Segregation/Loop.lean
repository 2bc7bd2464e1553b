import DpdkBeginners.Segregation.Defs
import Mathlib.Algebra.GroupWithZero.Nat

/-!
# The invariant of the segregation loop

Both rings are empty when an iteration starts: a burst is no longer than what one dequeue takes, so each
ring is drained in the iteration that filled it.  Hence no ring is ever near its capacity, no mbuf is
freed, and what is transmitted is the burst, sorted by class.
-/

namespace DpdkBeginners.Segregation

open DpdkBeginners.Rte DpdkBeginners.Lib

variable {ι : Type*} {mtod : ι → Mbuf} {s : State ι} {bufs : List ι} {tx : TxQueue ι}
  {evs : List (List ι × TxQueue ι)}

/-- The control packets of a burst. -/
def controlPackets (mtod : ι → Mbuf) (bufs : List ι) : List ι :=
  bufs.filter fun m => classifyPacket (mtod m)

/-- The data packets of a burst. -/
def dataPackets (mtod : ι → Mbuf) (bufs : List ι) : List ι :=
  bufs.filter fun m => !classifyPacket (mtod m)

/-! ### One iteration -/

theorem segregate_eq (hroom : s.controlRing.length + bufs.length ≤ ringCapacity)
    (hroom' : s.dataRing.length + bufs.length ≤ ringCapacity) :
    segregate mtod s bufs =
      (⟨s.controlRing ++ controlPackets mtod bufs, s.dataRing ++ dataPackets mtod bufs,
        s.controlCount + BitVec.ofNat 64 (controlPackets mtod bufs).length,
        s.dataCount + BitVec.ofNat 64 (dataPackets mtod bufs).length⟩, []) := by
  induction bufs generalizing s with
  | nil => simp [segregate, controlPackets, dataPackets]
  | cons m bufs ih =>
    rw [List.length_cons] at hroom hroom'
    have hinc : ∀ (c : U64) (n : ℕ), c + 1#64 + BitVec.ofNat 64 n = c + BitVec.ofNat 64 (n + 1) := by
      intro c n
      rw [BitVec.ofNat_add, BitVec.add_assoc, BitVec.add_comm 1#64]
    by_cases hm : classifyPacket (mtod m) = true
    · have hone : segregateOne mtod s m =
          ({ s with controlRing := s.controlRing ++ [m], controlCount := s.controlCount + 1 }, []) := by
        rw [segregateOne, if_pos hm, rteRingEnqueue_of_lt (by omega)]
      rw [segregate, hone]
      dsimp only
      rw [ih (by simp only [List.length_append, List.length_singleton]; omega) (by simp only; omega)]
      simp [controlPackets, dataPackets, hm, hinc]
    · have hone : segregateOne mtod s m =
          ({ s with dataRing := s.dataRing ++ [m], dataCount := s.dataCount + 1 }, []) := by
        rw [segregateOne, if_neg hm, rteRingEnqueue_of_lt (by omega)]
      rw [segregate, hone]
      dsimp only
      rw [ih (by simp only; omega) (by simp only [List.length_append, List.length_singleton]; omega)]
      simp [controlPackets, dataPackets, hm, hinc]

theorem iteration_eq (hcontrol : s.controlRing = []) (hdata : s.dataRing = [])
    (hb : bufs.length ≤ burstSize) :
    iteration mtod tx bufs s =
      (⟨[], [], s.controlCount + BitVec.ofNat 64 (controlPackets mtod bufs).length,
        s.dataCount + BitVec.ofNat 64 (dataPackets mtod bufs).length⟩,
        sendBurst tx (controlPackets mtod bufs) ++ sendBurst tx (dataPackets mtod bufs)) := by
  have hcap : bufs.length ≤ ringCapacity := by
    unfold burstSize at hb
    unfold ringCapacity rteRingCapacity
    omega
  have hle : (controlPackets mtod bufs).length ≤ burstSize := Nat.le_trans (List.length_filter_le _ _) hb
  have hle' : (dataPackets mtod bufs).length ≤ burstSize := Nat.le_trans (List.length_filter_le _ _) hb
  rw [iteration, segregate_eq (by simpa [hcontrol] using hcap) (by simpa [hdata] using hcap)]
  simp only [hcontrol, hdata, List.nil_append]
  rw [rteRingDequeueBurst_of_le hle, rteRingDequeueBurst_of_le hle']

theorem offered_sendBurst (tx : TxQueue ι) (out : List ι) :
    (sendBurst tx out).flatMap MbufOp.offered = out := by
  unfold sendBurst
  split_ifs with hpos
  · simp [TxQueue.send, MbufOp.offered]
  · exact (List.length_eq_zero_iff.1 (Nat.eq_zero_of_not_pos hpos)).symm

/-! ### Runs -/

/-- The number of mbufs received in a run. -/
def received (evs : List (List ι × TxQueue ι)) : ℕ := (evs.map fun ev => ev.1.length).sum

/-- **The invariant**, at the start of every iteration. -/
structure Inv (n : ℕ) (s : State ι) : Prop where
  controlRing : s.controlRing = []
  dataRing : s.dataRing = []
  count : s.controlCount + s.dataCount = BitVec.ofNat 64 n

theorem length_controlPackets_add (mtod : ι → Mbuf) (bufs : List ι) :
    (controlPackets mtod bufs).length + (dataPackets mtod bufs).length = bufs.length := by
  induction bufs with
  | nil => rfl
  | cons m bufs ih =>
    unfold controlPackets dataPackets at ih ⊢
    cases hm : classifyPacket (mtod m) <;>
      simp only [List.filter_cons, hm, Bool.not_true, Bool.not_false, if_true, if_false,
        Bool.false_eq_true, List.length_cons] <;> omega

theorem Inv.iteration {n : ℕ} (hs : Inv n s) (hb : bufs.length ≤ burstSize) :
    Inv (n + bufs.length) (iteration mtod tx bufs s).1 := by
  rw [iteration_eq hs.controlRing hs.dataRing hb]
  refine ⟨rfl, rfl, ?_⟩
  have hsum := length_controlPackets_add mtod bufs
  calc s.controlCount + BitVec.ofNat 64 (controlPackets mtod bufs).length +
        (s.dataCount + BitVec.ofNat 64 (dataPackets mtod bufs).length)
      = s.controlCount + s.dataCount + (BitVec.ofNat 64 (controlPackets mtod bufs).length +
          BitVec.ofNat 64 (dataPackets mtod bufs).length) := by
        ac_rfl
    _ = BitVec.ofNat 64 (n + bufs.length) := by
        rw [hs.count, ← BitVec.ofNat_add, ← BitVec.ofNat_add, hsum]

theorem run_inv (h : Run (Step mtod) init evs s) : Inv (received evs) s := by
  induction h with
  | refl => exact ⟨rfl, rfl, rfl⟩
  | @snoc t u es ev _ hstep ih =>
    obtain ⟨hb, rfl⟩ := hstep
    have hadd : received (es ++ [ev]) = received es + ev.1.length := by
      simp [received]
    rw [hadd]
    exact ih.iteration hb

/-- **Segregation.**  In every run, when an iteration starts both rings are empty and the counters add up
to the number of mbufs received; the iteration frees no mbuf, so each enqueue has succeeded; and it
offers the control packets of its burst and then the data packets, each in the order of their
arrival. -/
theorem segregation (h : Run (Step mtod) init evs s) (hb : bufs.length ≤ burstSize) :
    s.controlRing = [] ∧ s.dataRing = [] ∧
    s.controlCount + s.dataCount = BitVec.ofNat 64 (received evs) ∧
    (∀ m, MbufOp.free m ∉ (iteration mtod tx bufs s).2) ∧
    (iteration mtod tx bufs s).2.flatMap MbufOp.offered =
      bufs.filter (fun m => classifyPacket (mtod m)) ++
        bufs.filter (fun m => !classifyPacket (mtod m)) := by
  have hs := run_inv h
  refine ⟨hs.controlRing, hs.dataRing, hs.count, ?_, ?_⟩
  · intro m hm
    rw [iteration_eq hs.controlRing hs.dataRing hb] at hm
    have hsend : ∀ out, MbufOp.free m ∉ sendBurst tx out := by
      intro out
      unfold sendBurst
      split_ifs <;> simp [TxQueue.send]
    rcases List.mem_append.1 hm with hm | hm
    · exact hsend _ hm
    · exact hsend _ hm
  · rw [iteration_eq hs.controlRing hs.dataRing hb, List.flatMap_append, offered_sendBurst,
      offered_sendBurst]
    rfl

/-- A queue that takes every mbuf. -/
def takesAll : TxQueue ι := ⟨List.length, fun _ => Nat.le_refl _⟩

/-- The packets of the example: `true` is ICMP, and `false` is not IPv4. -/
def samplePacket (icmp : Bool) : Mbuf := if icmp then l4Base ipprotoIcmp else ⟨fun _ => 0, 60⟩

/-- The state after a burst of two. -/
def sampleState : State Bool := (iteration samplePacket takesAll [true, false] init).1

theorem segregation_samples :
    sampleState.controlCount + sampleState.dataCount = 2 ∧
      (iteration samplePacket takesAll [false, true] sampleState).2.flatMap MbufOp.offered =
        [true, false] := by
  have hrun : Run (Step samplePacket) init [([true, false], takesAll)] sampleState :=
    Run.single_iff.2 ⟨by decide, rfl⟩
  have hb : [false, true].length ≤ burstSize := by decide
  obtain ⟨-, -, hcount, -, hoffered⟩ := @segregation _ _ _ _ takesAll _ hrun hb
  refine ⟨hcount, hoffered.trans ?_⟩
  decide

end DpdkBeginners.Segregation
