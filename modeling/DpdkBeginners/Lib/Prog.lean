import Mathlib.Data.Nat.Notation
import Mathlib.Logic.Function.Basic
import Mathlib.Tactic.Common

/-!
# Programs that load and store cells

A program loads cells of a memory, goes on with what it has read, stores cells, and returns a value.
`p.Within P d` says that, run from the memory `d`, it accesses only cells that satisfy `P`.

* `Within.frame`: the other cells are unchanged.
* `Within.locality`: the other cells make no difference.
-/

namespace DpdkBeginners.Lib

open Function (update update_self update_of_ne)

/-- A program over cells of type `β` that returns an `α`. -/
inductive Prog (β α : Type) : Type
  | ret (a : α)
  | load (o : ℕ) (k : β → Prog β α)
  | store (o : ℕ) (v : β) (p : Prog β α)

namespace Prog

variable {β α γ : Type} {P : ℕ → Prop} {p q : Prog β α} {f : α → Prog β γ} {d d' : ℕ → β} {o : ℕ} {v : β}

/-- One program after the other. -/
def bind (f : α → Prog β γ) : Prog β α → Prog β γ
  | ret a => f a
  | load o k => load o fun v => (k v).bind f
  | store o v p => store o v (p.bind f)

instance : Monad (Prog β) where
  pure := ret
  bind p f := p.bind f

/-- The value that a program returns and the memory that it leaves behind. -/
def run : Prog β α → (ℕ → β) → α × (ℕ → β)
  | ret a, d => (a, d)
  | load o k, d => (k (d o)).run d
  | store o v p, d => p.run (update d o v)

/-- The cells that are accessed satisfy `P`. -/
def Within (P : ℕ → Prop) : Prog β α → (ℕ → β) → Prop
  | ret _, _ => True
  | load o k, d => P o ∧ (k (d o)).Within P d
  | store o v p, d => P o ∧ p.Within P (update d o v)

/-! ### One step, one program after the other, and branches -/

@[simp] theorem run_pure (a : α) : (pure a : Prog β α).run d = (a, d) := rfl

@[simp] theorem within_pure (a : α) : (pure a : Prog β α).Within P d := trivial

@[simp] theorem run_load (k : β → Prog β α) : (load o k).run d = (k (d o)).run d := rfl

@[simp] theorem within_load (k : β → Prog β α) :
    (load o k).Within P d ↔ P o ∧ (k (d o)).Within P d := Iff.rfl

@[simp] theorem run_store : (store o v p).run d = p.run (update d o v) := rfl

@[simp] theorem within_store : (store o v p).Within P d ↔ P o ∧ p.Within P (update d o v) := Iff.rfl

@[simp] theorem run_bind : (p >>= f).run d = (f (p.run d).1).run (p.run d).2 := by
  induction p generalizing d with
  | ret a => rfl
  | load o k ih => exact ih (d o)
  | store o v p ih => exact ih

@[simp] theorem within_bind :
    (p >>= f).Within P d ↔ p.Within P d ∧ (f (p.run d).1).Within P (p.run d).2 := by
  induction p generalizing d with
  | ret a => exact (and_iff_right trivial).symm
  | load o k ih => exact (and_congr_right fun _ => ih (d o)).trans and_assoc.symm
  | store o v p ih => exact (and_congr_right fun _ => ih).trans and_assoc.symm

theorem run_ite (c : Prop) [Decidable c] :
    (if c then p else q).run d = if c then p.run d else q.run d := apply_ite (fun p => run p d) c p q

theorem within_ite (c : Prop) [Decidable c] :
    (if c then p else q).Within P d ↔ if c then p.Within P d else q.Within P d := by
  split_ifs <;> rfl

/-! ### What it means -/

/-- **Frame.**  A cell that is not accessed is unchanged. -/
theorem Within.frame (h : p.Within P d) (ho : ¬ P o) : (p.run d).2 o = d o := by
  induction p generalizing d with
  | ret a => rfl
  | load o' k ih => exact ih _ h.2
  | store o' v p ih =>
    have hne : o ≠ o' := by
      rintro rfl
      exact ho h.1
    exact (ih h.2).trans (update_of_ne hne v d)

/-- **Locality.**  A cell that is not accessed makes no difference: neither to the value nor to the cells that
are stored, nor to which cells are accessed. -/
theorem Within.locality (h : p.Within P d) (hd : ∀ o, P o → d o = d' o) :
    p.Within P d' ∧ (p.run d).1 = (p.run d').1 ∧ ∀ o, P o → (p.run d).2 o = (p.run d').2 o := by
  induction p generalizing d d' with
  | ret a => exact ⟨trivial, rfl, hd⟩
  | load o' k ih =>
    obtain ⟨ho, hk⟩ := h
    obtain ⟨hw, hval, hmem⟩ := ih _ hk hd
    rw [hd o' ho] at hw hval hmem
    exact ⟨⟨ho, hw⟩, by simpa only [run_load, hd o' ho] using hval,
      by simpa only [run_load, hd o' ho] using hmem⟩
  | store o' v p ih =>
    have hupd : ∀ o, P o → update d o' v o = update d' o' v o := by
      intro o ho
      by_cases heq : o = o'
      · rw [heq, update_self, update_self]
      · rw [update_of_ne heq, update_of_ne heq, hd o ho]
    obtain ⟨hw, hval, hmem⟩ := ih h.2 hupd
    exact ⟨⟨h.1, hw⟩, hval, hmem⟩

end Prog

end DpdkBeginners.Lib
