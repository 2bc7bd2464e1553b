import Mathlib.Data.List.Basic
import Mathlib.Tactic.Common

/-!
# One loop over a list, or a loop for each operation

A loop that applies several operations to each entry of a list may be split into one loop for each operation, when
what an operation does to an entry and what another does to a different entry may be exchanged
(`Exchange`).

* `foldl_then`: the two forms agree.
* `foldl_undo`: a loop whose operation undoes itself, run twice, changes nothing.
-/

namespace DpdkBeginners.Lib

variable {σ α : Type*} {f g k : σ → α → σ}

/-- The operation `f` on any entry and the operation `g` on any entry may be exchanged. -/
def Exchange (f g : σ → α → σ) : Prop := ∀ s i j, g (f s i) j = f (g s j) i

theorem Exchange.symm (h : Exchange f g) : Exchange g f := fun s i j => (h s j i).symm

theorem Exchange.then (hf : Exchange f k) (hg : Exchange g k) : Exchange (fun s i => g (f s i) i) k := by
  intro s i j
  rw [hg, hf]

/-- An operation may be moved before a loop. -/
theorem foldl_exchange (h : Exchange f g) (s : σ) (j : α) (l : List α) :
    l.foldl f (g s j) = g (l.foldl f s) j :=
  List.foldl_hom (fun s => g s j) fun s i => (h s i j).symm

/-- **Two loops** instead of one. -/
theorem foldl_then (h : Exchange f g) (s : σ) (l : List α) :
    l.foldl (fun s i => g (f s i) i) s = l.foldl g (l.foldl f s) := by
  induction l generalizing s with
  | nil => rfl
  | cons i l ih => rw [List.foldl_cons, ih, List.foldl_cons, List.foldl_cons, foldl_exchange h]

theorem foldl_undo (h : Exchange f f) (hf : ∀ s i, f (f s i) i = s) (s : σ) (l : List α) :
    l.foldl f (l.foldl f s) = s := by
  induction l generalizing s with
  | nil => rfl
  | cons i l ih =>
    rw [List.foldl_cons, List.foldl_cons, ← foldl_exchange h, hf]
    exact ih s

end DpdkBeginners.Lib
