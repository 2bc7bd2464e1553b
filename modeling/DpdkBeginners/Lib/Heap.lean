import Mathlib.Data.Fintype.EquivFin
import Mathlib.Data.List.Perm.Basic
import Mathlib.Data.Nat.Notation
import Mathlib.Logic.Function.Basic
import Mathlib.Tactic.Common

/-!
# Allocated cells and their owners

A heap has the contents of the cells that are allocated; to load or to free any other cell is a fault.
`Owns h cells` says that `cells` are the allocated cells with their contents, each one once.  In a program
that has each pointer in one place at a time, this is the list of what its parties hold and of what is in
the queues between them.

* `Owns.load`, `Owns.free`: to load or to free a cell of the list is no fault.
* `Owns.alloc`, `Owns.free`, `Owns.perm`: what the operations make of the list.
* `Owns.eq_none`: when the list is empty, nothing is allocated.
-/

namespace DpdkBeginners.Lib

open Function (update update_self update_of_ne)

variable {α : Type*}

abbrev Heap (α : Type*) := ℕ → Option α

namespace Heap

/-- Nothing is allocated. -/
def empty : Heap α := fun _ => none

/-- The cell `a`, which the allocator has chosen, now holds `v`. -/
def alloc (h : Heap α) (a : ℕ) (v : α) : Heap α := update h a (some v)

/-- A cell is given back; `none` is the fault of giving back a cell that is not allocated. -/
def free (h : Heap α) (a : ℕ) : Option (Heap α) := (h a).map fun _ => update h a none

end Heap

/-- The allocated cells are the ones in the list, with these contents, and the list has each of them
once. -/
structure Owns (h : Heap α) (cells : List (ℕ × α)) : Prop where
  nodup : (cells.map Prod.fst).Nodup
  eq_some : ∀ a v, h a = some v ↔ (a, v) ∈ cells

namespace Owns

variable {h : Heap α} {cells cells' : List (ℕ × α)} {a : ℕ} {v : α}

theorem empty : Owns (Heap.empty : Heap α) [] :=
  ⟨List.nodup_nil, fun a v => by simp [Heap.empty]⟩

theorem perm (hc : Owns h cells) (hp : cells.Perm cells') : Owns h cells' :=
  ⟨(hp.map _).nodup_iff.1 hc.nodup, fun a v => (hc.eq_some a v).trans hp.mem_iff⟩

theorem load (hc : Owns h cells) (hm : (a, v) ∈ cells) : h a = some v := (hc.eq_some a v).2 hm

theorem eq_none_iff (hc : Owns h cells) : h a = none ↔ a ∉ cells.map Prod.fst := by
  constructor
  · intro hnone hm
    obtain ⟨⟨b, w⟩, hmem, rfl⟩ := List.mem_map.1 hm
    rw [hc.load hmem] at hnone
    cases hnone
  · intro hm
    cases hv : h a with
    | none => rfl
    | some v => exact absurd (List.mem_map_of_mem ((hc.eq_some a v).1 hv)) hm

/-- No leak: what nobody owns is not allocated. -/
theorem eq_none (hc : Owns h []) (a : ℕ) : h a = none := hc.eq_none_iff.2 (by simp)

theorem exists_eq_none (hc : Owns h cells) : ∃ a, h a = none := by
  obtain ⟨a, ha⟩ := Infinite.exists_notMem_finset (cells.map Prod.fst).toFinset
  exact ⟨a, hc.eq_none_iff.2 fun hm => ha (List.mem_toFinset.2 hm)⟩

theorem alloc (hc : Owns h cells) (ha : h a = none) (v : α) : Owns (h.alloc a v) ((a, v) :: cells) := by
  have hnew := hc.eq_none_iff.1 ha
  refine ⟨List.nodup_cons.2 ⟨hnew, hc.nodup⟩, fun b w => ?_⟩
  unfold Heap.alloc
  by_cases hb : b = a
  · subst hb
    have hno : (b, w) ∉ cells := fun hm => hnew (List.mem_map.2 ⟨_, hm, rfl⟩)
    simp [hno, eq_comm]
  · rw [update_of_ne hb, hc.eq_some]
    simp [hb]

theorem free (hc : Owns h ((a, v) :: cells)) : ∃ h', h.free a = some h' ∧ Owns h' cells := by
  refine ⟨update h a none, ?_, ?_⟩
  · simp [Heap.free, hc.load List.mem_cons_self]
  · obtain ⟨hnew, hnodup⟩ := List.nodup_cons.1 hc.nodup
    refine ⟨hnodup, fun b w => ?_⟩
    by_cases hb : b = a
    · subst hb
      have hno : (b, w) ∉ cells := fun hm => hnew (List.mem_map.2 ⟨_, hm, rfl⟩)
      simp [hno]
    · rw [update_of_ne hb, hc.eq_some]
      simp [hb]

end Owns

end DpdkBeginners.Lib
