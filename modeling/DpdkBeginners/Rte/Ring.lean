import Mathlib.Data.List.Basic
import Mathlib.Order.Basic
import Mathlib.Tactic.Common

/-!
# Rings

`rte_ring` is a first-in-first-out queue of pointers with a bounded capacity: the oldest pointer is the
head of the list.  A ring created with the size `n`, without `RING_F_EXACT_SZ`, holds `n - 1` pointers.
An enqueue of one pointer fails when the ring is full; a burst takes as many pointers as fit, or as
there are.
-/

namespace DpdkBeginners.Rte

variable {α : Type*}

/-- How many pointers a ring of the given size holds. -/
def rteRingCapacity (size : ℕ) : ℕ := size - 1

/-- `rte_ring_enqueue`; `none` is the return value `-ENOBUFS`. -/
def rteRingEnqueue (cap : ℕ) (r : List α) (x : α) : Option (List α) :=
  if r.length < cap then some (r ++ [x]) else none

/-- `rte_ring_dequeue`; `none` is the return value `-ENOENT`. -/
def rteRingDequeue : List α → Option (α × List α)
  | [] => none
  | x :: r => some (x, r)

/-- `rte_ring_enqueue_burst`: the ring and the number of pointers it has taken. -/
def rteRingEnqueueBurst (cap : ℕ) (r xs : List α) : List α × ℕ :=
  let n := min xs.length (cap - r.length)
  (r ++ xs.take n, n)

/-- `rte_ring_dequeue_burst`: the pointers, at most `n`, and the ring. -/
def rteRingDequeueBurst (r : List α) (n : ℕ) : List α × List α := (r.take n, r.drop n)

theorem rteRingEnqueue_of_lt {cap : ℕ} {r : List α} (h : r.length < cap) (x : α) :
    rteRingEnqueue cap r x = some (r ++ [x]) := if_pos h

theorem rteRingEnqueueBurst_of_le {cap : ℕ} {r xs : List α} (h : r.length + xs.length ≤ cap) :
    rteRingEnqueueBurst cap r xs = (r ++ xs, xs.length) := by
  have hn : min xs.length (cap - r.length) = xs.length := by omega
  simp [rteRingEnqueueBurst, hn]

theorem rteRingDequeueBurst_append (r : List α) (n : ℕ) :
    (rteRingDequeueBurst r n).1 ++ (rteRingDequeueBurst r n).2 = r := List.take_append_drop n r

/-- A burst dequeues the whole ring, when it holds no more pointers than that. -/
theorem rteRingDequeueBurst_of_le {r : List α} {n : ℕ} (h : r.length ≤ n) :
    rteRingDequeueBurst r n = (r, []) := by
  simp [rteRingDequeueBurst, List.take_of_length_le h, h]

end DpdkBeginners.Rte
