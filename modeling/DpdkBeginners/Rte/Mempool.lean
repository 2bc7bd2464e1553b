import DpdkBeginners.Lib.Run
import DpdkBeginners.Rte.TxBurst
import Mathlib.Algebra.BigOperators.Group.List.Basic
import Mathlib.Algebra.Order.Ring.Nat
import Mathlib.Algebra.Order.Sub.Basic
import Mathlib.Data.Multiset.OrderedMonoid

/-!
# The mbufs of a pool over a run

A loop receives mbufs of a pool and gives them away again: a freed mbuf is available at once, and one that the
transmit queue has accepted as soon as the queue is done with it.  An mbuf that the loop has received and not given
away is leaked: the loop forgets it, so it is not received again.

* Nothing else happens to an mbuf (`Loop.conserved`), and what has leaked is the sum over the iterations
  (`Loop.leaked_eq`).
* So the mbufs that a loop leaks over a whole run are no more than the pool has (`Loop.Drains`), and the pool stays
  whole if no iteration leaks any (`Loop.whole`).
* `add_given`: what an iteration leaks is what it neither offers nor frees, and what the queue refuses.
-/

namespace DpdkBeginners.Rte

open DpdkBeginners.Lib

variable {ι β : Type*}

/-! ### One iteration -/

/-- The mbufs that the calls give away. -/
def given (ops : List (MbufOp ι)) : Multiset ι :=
  (ops.flatMap MbufOp.accepted : Multiset ι) + (ops.flatMap MbufOp.freed : Multiset ι)

/-- The mbufs that the calls offer in vain. -/
def refused (ops : List (MbufOp ι)) : Multiset ι := (ops.flatMap MbufOp.refused : Multiset ι)

/-- **What becomes of the mbufs** of an iteration: it gives them away, or it offers them in vain, or it does
neither (`ignored`). -/
theorem add_given {ops : List (MbufOp ι)} {ignored received : List ι}
    (h : (ops.flatMap MbufOp.offered ++ ops.flatMap MbufOp.freed ++ ignored).Perm received) :
    given ops + (refused ops + (ignored : Multiset ι)) = (received : Multiset ι) := by
  have hoffered : (ops.flatMap MbufOp.offered : Multiset ι) =
      (ops.flatMap MbufOp.accepted : Multiset ι) + (ops.flatMap MbufOp.refused : Multiset ι) :=
    Multiset.coe_eq_coe.2 (offered_perm ops)
  rw [← Multiset.coe_eq_coe.2 h, ← Multiset.coe_add, ← Multiset.coe_add, hoffered, given, refused]
  ac_rfl

theorem given_le {ops : List (MbufOp ι)} {received : List ι}
    (h : (ops.flatMap MbufOp.offered ++ ops.flatMap MbufOp.freed).Perm received) :
    given ops ≤ (received : Multiset ι) := by
  rw [← List.append_nil (_ ++ _)] at h
  rw [← add_given h]
  exact Multiset.le_add_right _ _

/-- A loop, by what an iteration receives and the calls that it makes. -/
structure Loop (β ι : Type*) where
  received : β → List ι
  ops : β → List (MbufOp ι)
  /-- An iteration gives away what it has received, and once. -/
  gives : ∀ b, given (ops b) ≤ (received b : Multiset ι)

/-! ### Runs -/

/-- Where the mbufs of a pool are. -/
structure Mempool (ι : Type*) where
  /-- free, or with the receive queue -/
  avail : Multiset ι
  /-- with the transmit queue -/
  queued : Multiset ι
  /-- received, and forgotten -/
  leaked : Multiset ι
  deriving DecidableEq

/-- `rte_pktmbuf_pool_create`. -/
def rtePktmbufPoolCreate (mbufs : Multiset ι) : Mempool ι := ⟨mbufs, 0, 0⟩

/-- What can happen to the mbufs. -/
inductive MempoolEvent (β ι : Type*)
  | iteration (b : β)
  /-- The transmit queue is done with `bufs`. -/
  | done (bufs : Multiset ι)

/-- A number that each iteration adds to. -/
def MempoolEvent.count (f : β → ℕ) : MempoolEvent β ι → ℕ
  | .iteration b => f b
  | .done _ => 0

namespace Loop

variable [DecidableEq ι] (L : Loop β ι)

/-- What an iteration leaks. -/
def leaks (b : β) : Multiset ι := (L.received b : Multiset ι) - given (L.ops b)

/-- Only an mbuf that is available is received. -/
def Enabled (p : Mempool ι) : MempoolEvent β ι → Prop
  | .iteration b => (L.received b : Multiset ι) ≤ p.avail
  | .done bufs => bufs ≤ p.queued

instance (p : Mempool ι) : DecidablePred (L.Enabled p) := fun
  | .iteration _ => inferInstanceAs (Decidable (_ ≤ p.avail))
  | .done _ => inferInstanceAs (Decidable (_ ≤ p.queued))

/-- The pool after an event. -/
def step (p : Mempool ι) : MempoolEvent β ι → Mempool ι
  | .iteration b =>
    { avail := p.avail - (L.received b : Multiset ι) + ((L.ops b).flatMap MbufOp.freed : Multiset ι)
      queued := p.queued + ((L.ops b).flatMap MbufOp.accepted : Multiset ι)
      leaked := p.leaked + L.leaks b }
  | .done bufs => { p with avail := p.avail + bufs, queued := p.queued - bufs }

/-- One step of a loop and of the transmit queue. -/
def Step (p : Mempool ι) (ev : MempoolEvent β ι) (q : Mempool ι) : Prop := L.Enabled p ev ∧ L.step p ev = q

/-- What leaks in an event. -/
def leaksOf : MempoolEvent β ι → Multiset ι
  | .iteration b => L.leaks b
  | .done _ => 0

variable {L} {p q : Mempool ι} {mbufs : Multiset ι} {evs : List (MempoolEvent β ι)} {ev : MempoolEvent β ι}
  {b : β}

theorem leaks_eq {ignored : List ι}
    (h : ((L.ops b).flatMap MbufOp.offered ++ (L.ops b).flatMap MbufOp.freed ++ ignored).Perm (L.received b)) :
    L.leaks b = refused (L.ops b) + (ignored : Multiset ι) := by
  rw [leaks, ← add_given h]
  exact add_tsub_cancel_left _ _

theorem leaks_eq_zero (h : given (L.ops b) = (L.received b : Multiset ι)) : L.leaks b = 0 := by
  rw [leaks, h, tsub_self]

/-- A step moves mbufs and makes none. -/
theorem Step.total (h : L.Step p ev q) : q.avail + q.queued + q.leaked = p.avail + p.queued + p.leaked := by
  obtain ⟨hen, rfl⟩ := h
  cases ev with
  | iteration b =>
    obtain ⟨rest, hrest⟩ := Multiset.le_iff_exists_add.1 hen
    have hreceived : given (L.ops b) + L.leaks b = (L.received b : Multiset ι) :=
      add_tsub_cancel_of_le (L.gives b)
    simp only [step]
    rw [hrest, add_tsub_cancel_left, ← hreceived, given]
    ac_rfl
  | done bufs =>
    obtain ⟨rest, hrest⟩ := Multiset.le_iff_exists_add.1 hen
    simp only [step]
    rw [hrest, add_tsub_cancel_left]
    ac_rfl

/-- **No mbuf vanishes**: each of them is available, queued or leaked. -/
theorem conserved (h : Run L.Step (rtePktmbufPoolCreate mbufs) evs p) :
    p.avail + p.queued + p.leaked = mbufs := by
  refine h.invariant (I := fun p => p.avail + p.queued + p.leaked = mbufs) ?_ ?_
  · simp [rtePktmbufPoolCreate]
  · exact fun _ _ _ hp hstep => hstep.total.trans hp

/-- **What has leaked** is what has leaked in each iteration. -/
theorem leaked_eq (h : Run L.Step (rtePktmbufPoolCreate mbufs) evs p) : p.leaked = (evs.map L.leaksOf).sum := by
  induction h with
  | refl => rfl
  | @snoc p q evs ev _ hstep ih =>
    obtain ⟨-, rfl⟩ := hstep
    rw [List.map_append, List.sum_append, ← ih]
    cases ev with
    | iteration b => simp [step, leaksOf]
    | done bufs => simp [step, leaksOf]

theorem card_leaked {f : β → ℕ} (hf : ∀ b, (L.leaks b).card = f b)
    (h : Run L.Step (rtePktmbufPoolCreate mbufs) evs p) : p.leaked.card = (evs.map (MempoolEvent.count f)).sum := by
  rw [leaked_eq h, ← Multiset.cardHom_apply, map_list_sum, List.map_map]
  congr 2
  funext ev
  cases ev with
  | iteration b => exact hf b
  | done bufs => rfl

/-- A loop drains its pool by what `f` counts: that is missing for the rest of the run, and a burst has no more mbufs
than are left. -/
def Drains (L : Loop β ι) (f : β → ℕ) : Prop :=
  ∀ mbufs evs p, Run L.Step (rtePktmbufPoolCreate mbufs) evs p →
    p.avail.card + p.queued.card + (evs.map (MempoolEvent.count f)).sum = mbufs.card ∧
      ∀ b, L.Enabled p (.iteration b) →
        (L.received b).length + (evs.map (MempoolEvent.count f)).sum ≤ mbufs.card

/-- **A loop drains its pool** by what it leaks. -/
theorem drains_of_card {f : β → ℕ} (hf : ∀ b, (L.leaks b).card = f b) : L.Drains f := by
  intro mbufs evs p h
  have hall : p.avail.card + p.queued.card + (evs.map (MempoolEvent.count f)).sum = mbufs.card := by
    rw [← card_leaked hf h, ← conserved h, Multiset.card_add, Multiset.card_add]
  refine ⟨hall, fun b hen => ?_⟩
  have havail : (L.received b).length ≤ p.avail.card := Multiset.card_le_card hen
  omega

/-- **A loop that offers or frees each mbuf** drains its pool by what the queue refuses. -/
theorem drains_of_perm {f : β → ℕ}
    (hperm : ∀ b, ((L.ops b).flatMap MbufOp.offered ++ (L.ops b).flatMap MbufOp.freed).Perm (L.received b))
    (hf : ∀ b, ((L.ops b).flatMap MbufOp.refused).length = f b) : L.Drains f := by
  refine drains_of_card fun b => ?_
  have h := hperm b
  rw [← List.append_nil (_ ++ _)] at h
  rw [leaks_eq h, refused, Multiset.coe_nil, add_zero, Multiset.coe_card, hf]

/-- **A pool stays whole** if no iteration leaks an mbuf. -/
theorem whole (hL : ∀ b, L.leaks b = 0) (h : Run L.Step (rtePktmbufPoolCreate mbufs) evs p) :
    p.avail + p.queued = mbufs := by
  have hzero : (evs.map L.leaksOf).sum = 0 := by
    apply List.sum_eq_zero
    intro x hx
    obtain ⟨ev, -, rfl⟩ := List.mem_map.1 hx
    cases ev with
    | iteration b => exact hL b
    | done bufs => rfl
  have hall := conserved h
  rwa [leaked_eq h, hzero, add_zero] at hall

theorem mem_leaked (h : Run L.Step (rtePktmbufPoolCreate mbufs) evs p) (hev : .iteration b ∈ evs) {m : ι}
    (hm : m ∈ L.leaks b) : m ∈ p.leaked := by
  obtain ⟨pre, post, rfl⟩ := List.append_of_mem hev
  rw [leaked_eq h, List.map_append, List.sum_append, List.map_cons, List.sum_cons]
  exact Multiset.mem_add.2 (.inr (Multiset.mem_add.2 (.inl hm)))

/-- **A leaked mbuf** is not received again. -/
theorem not_received (hnodup : mbufs.Nodup) (h : Run L.Step (rtePktmbufPoolCreate mbufs) evs p)
    (hev : .iteration b ∈ evs) {m : ι} (hm : m ∈ L.leaks b) {b' : β} (hen : L.Enabled p (.iteration b')) :
    m ∉ L.received b' := by
  intro hb
  have havail : m ∈ p.avail := Multiset.mem_of_le hen (Multiset.mem_coe.2 hb)
  rw [← conserved h] at hnodup
  have hdisj := (Multiset.nodup_add.1 hnodup).2.2
  exact Multiset.disjoint_left.1 hdisj (Multiset.mem_add.2 (.inl havail)) (mem_leaked h hev hm)

end Loop

end DpdkBeginners.Rte
