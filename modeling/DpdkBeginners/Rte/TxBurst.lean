import Mathlib.Data.List.Nodup
import Mathlib.Data.List.Perm.Basic
import Mathlib.Data.Nat.Notation
import Mathlib.Tactic.Common

/-!
# Who owns an mbuf

A forwarding loop gives each mbuf that it has received away: `rte_eth_tx_burst` takes the first ones of
the mbufs offered to it, as many as it returns, and `rte_pktmbuf_free` takes one.  The rest of an offer
still belongs to the loop, which has to offer or free it again.

When a loop offers or frees each mbuf once, each of them is owned by someone else in the end if and only
if no offer was refused in part (`ownedOnce_iff`).
-/

namespace DpdkBeginners.Rte

variable {ι : Type*}

/-- A call that gives mbufs away. -/
inductive MbufOp (ι : Type*)
  /-- `rte_eth_tx_burst` of `bufs`, and what it returns. -/
  | tx (bufs : List ι) (sent : ℕ)
  /-- `rte_pktmbuf_free`. -/
  | free (m : ι)

namespace MbufOp

def offered : MbufOp ι → List ι
  | tx bufs _ => bufs
  | free _ => []

def accepted : MbufOp ι → List ι
  | tx bufs sent => bufs.take sent
  | free _ => []

def refused : MbufOp ι → List ι
  | tx bufs sent => bufs.drop sent
  | free _ => []

def freed : MbufOp ι → List ι
  | tx _ _ => []
  | free m => [m]

end MbufOp

/-- The answers of a transmit queue in one iteration of a loop, which offers no mbuf twice: how many of
the mbufs of a burst `rte_eth_tx_burst` takes. -/
structure TxQueue (ι : Type*) where
  burst : List ι → ℕ
  burst_le : ∀ bufs, burst bufs ≤ bufs.length

/-- The call of `rte_eth_tx_burst` on a queue. -/
def TxQueue.send (tx : TxQueue ι) (bufs : List ι) : MbufOp ι := .tx bufs (tx.burst bufs)

/-- A queue that takes half of a burst. -/
def takesHalf : TxQueue ι := ⟨fun bufs => bufs.length / 2, fun bufs => Nat.div_le_self bufs.length 2⟩

/-- Each mbuf received has been either accepted or freed, exactly once. -/
def OwnedOnce [DecidableEq ι] (received : List ι) (ops : List (MbufOp ι)) : Prop :=
  ∀ m ∈ received,
    (ops.flatMap MbufOp.accepted).count m + (ops.flatMap MbufOp.freed).count m = 1

/-! ### When nothing is refused -/

theorem append_append_perm (l₁ l₂ l₃ l₄ : List ι) :
    (l₁ ++ l₂ ++ (l₃ ++ l₄)).Perm (l₁ ++ l₃ ++ (l₂ ++ l₄)) := by
  rw [List.append_assoc, List.append_assoc]
  exact (List.perm_append_comm_assoc l₂ l₃ l₄).append_left l₁

theorem offered_perm (ops : List (MbufOp ι)) :
    (ops.flatMap MbufOp.offered).Perm
      (ops.flatMap MbufOp.accepted ++ ops.flatMap MbufOp.refused) := by
  induction ops with
  | nil => exact .refl _
  | cons op ops ih =>
    have hop : op.offered = op.accepted ++ op.refused := by
      cases op with
      | tx bufs sent => exact (List.take_append_drop sent bufs).symm
      | free m => rfl
    rw [List.flatMap_cons, List.flatMap_cons, List.flatMap_cons, hop]
    exact (ih.append_left _).trans (append_append_perm ..)

/-- **Ownership.**  When a loop offers or frees each mbuf once, each of them is accepted or freed once if
and only if none is refused. -/
theorem ownedOnce_iff [DecidableEq ι] {received : List ι} {ops : List (MbufOp ι)}
    (hnodup : received.Nodup)
    (hperm : (ops.flatMap MbufOp.offered ++ ops.flatMap MbufOp.freed).Perm received) :
    OwnedOnce received ops ↔ ops.flatMap MbufOp.refused = [] := by
  have hcount : ∀ m, (ops.flatMap MbufOp.accepted).count m + (ops.flatMap MbufOp.refused).count m +
      (ops.flatMap MbufOp.freed).count m = received.count m := by
    intro m
    rw [← hperm.count_eq, List.count_append, (offered_perm ops).count_eq, List.count_append]
  have hone : ∀ m ∈ received, received.count m = 1 := fun m hm => List.count_eq_one_of_mem hnodup hm
  constructor
  · intro howned
    rw [List.eq_nil_iff_forall_not_mem]
    intro m hm
    have hpos : 0 < (ops.flatMap MbufOp.refused).count m := List.count_pos_iff.2 hm
    have hsum := hcount m
    have hmem : m ∈ received := List.count_pos_iff.1 (by omega)
    have h₁ := hone m hmem
    have h₂ := howned m hmem
    omega
  · intro hnil m hm
    have hsum := hcount m
    have h₁ := hone m hm
    rw [hnil, List.count_nil] at hsum
    omega

/-- The calls of a loop that offers the mbufs of each list in `bursts` as one burst. -/
theorem refused_send_eq_nil (tx : TxQueue ι) (bursts : List (List ι)) :
    (bursts.map tx.send).flatMap MbufOp.refused = [] ↔
      ∀ bufs ∈ bursts, tx.burst bufs = bufs.length := by
  have hone : ∀ bufs, (tx.send bufs).refused = [] ↔ tx.burst bufs = bufs.length := by
    intro bufs
    have hle := tx.burst_le bufs
    rw [TxQueue.send, MbufOp.refused, List.drop_eq_nil_iff]
    omega
  simp [List.flatMap_eq_nil_iff, hone]

/-! ### Mbufs given away one by one -/

section Singles

variable (tx : TxQueue ι) (ms : List ι)

theorem offered_singles : (ms.map fun m => tx.send [m]).flatMap MbufOp.offered = ms := by
  simp [List.flatMap_map, TxQueue.send, MbufOp.offered]

theorem freed_singles : (ms.map fun m => tx.send [m]).flatMap MbufOp.freed = [] := by
  simp [TxQueue.send, MbufOp.freed]

theorem refused_singles :
    (ms.map fun m => tx.send [m]).flatMap MbufOp.refused = ms.filter fun m => tx.burst [m] = 0 := by
  induction ms with
  | nil => rfl
  | cons m ms ih =>
    rw [List.map_cons, List.flatMap_cons, ih, TxQueue.send, MbufOp.refused]
    have hle : tx.burst [m] ≤ 1 := tx.burst_le [m]
    by_cases hzero : tx.burst [m] = 0
    · rw [hzero, List.filter_cons_of_pos (by simpa using hzero)]
      rfl
    · rw [List.drop_eq_nil_of_le (by simp; omega), List.filter_cons_of_neg (by simpa using hzero)]
      rfl

theorem refused_singles_eq_nil :
    (ms.map fun m => tx.send [m]).flatMap MbufOp.refused = [] ↔ ∀ m ∈ ms, tx.burst [m] = 1 := by
  have h := refused_send_eq_nil tx (ms.map fun m => [m])
  rw [List.map_map] at h
  simpa using h

theorem offered_frees : (ms.map MbufOp.free).flatMap MbufOp.offered = [] := by
  simp [MbufOp.offered]

theorem accepted_frees : (ms.map MbufOp.free).flatMap MbufOp.accepted = [] := by
  simp [MbufOp.accepted]

theorem freed_frees : (ms.map MbufOp.free).flatMap MbufOp.freed = ms := by
  simp [List.flatMap_map, MbufOp.freed]

theorem refused_frees : (ms.map MbufOp.free).flatMap MbufOp.refused = [] := by
  simp [MbufOp.refused]

end Singles

/-! ### Freeing the rest of an array -/

/-- The loop that frees the `n` entries of the array from the index `i` on. -/
def freeFrom (bufs : List ι) (i : ℕ) : ℕ → List (MbufOp ι)
  | 0 => []
  | n + 1 =>
    (match bufs[i]? with
      | some m => [.free m]
      | none => []) ++ freeFrom bufs (i + 1) n

theorem freeFrom_eq (bufs : List ι) (i n : ℕ) :
    freeFrom bufs i n = ((bufs.drop i).take n).map .free := by
  induction n generalizing i with
  | zero => simp [freeFrom]
  | succ n ih =>
    rw [freeFrom, ih]
    by_cases hi : i < bufs.length
    · rw [List.getElem?_eq_getElem hi, List.drop_eq_getElem_cons hi, List.take_succ_cons, List.map_cons]
      rfl
    · rw [List.getElem?_eq_none (by omega), List.drop_eq_nil_of_le (by omega),
        List.drop_eq_nil_of_le (by omega)]
      simp

/-- A burst is offered, and what the queue refuses is freed. -/
def sendOrFree (tx : TxQueue ι) (bufs : List ι) : List (MbufOp ι) :=
  let sent := tx.burst bufs
  tx.send bufs :: if sent < bufs.length then freeFrom bufs sent (bufs.length - sent) else []

section SendOrFree

variable (tx : TxQueue ι) (bufs : List ι)

theorem sendOrFree_eq :
    sendOrFree tx bufs = tx.send bufs :: (bufs.drop (tx.burst bufs)).map .free := by
  refine congrArg (List.cons (tx.send bufs)) ?_
  split_ifs with hsent
  · rw [freeFrom_eq, List.take_of_length_le (Nat.le_of_eq (List.length_drop ..))]
  · rw [List.drop_eq_nil_of_le (Nat.not_lt.1 hsent)]
    rfl

theorem offered_sendOrFree : (sendOrFree tx bufs).flatMap MbufOp.offered = bufs := by
  rw [sendOrFree_eq, List.flatMap_cons, offered_frees, List.append_nil]
  rfl

theorem accepted_sendOrFree :
    (sendOrFree tx bufs).flatMap MbufOp.accepted = bufs.take (tx.burst bufs) := by
  rw [sendOrFree_eq, List.flatMap_cons, accepted_frees, List.append_nil]
  rfl

theorem freed_sendOrFree : (sendOrFree tx bufs).flatMap MbufOp.freed = bufs.drop (tx.burst bufs) := by
  rw [sendOrFree_eq, List.flatMap_cons, freed_frees]
  rfl

/-- **Whatever the queue takes**, each mbuf is accepted or freed, once. -/
theorem ownedOnce_sendOrFree [DecidableEq ι] {bufs : List ι} (hnodup : bufs.Nodup) :
    OwnedOnce bufs (sendOrFree tx bufs) := by
  intro m hm
  rw [accepted_sendOrFree, freed_sendOrFree, ← List.count_append, List.take_append_drop]
  exact List.count_eq_one_of_mem hnodup hm

end SendOrFree

end DpdkBeginners.Rte
