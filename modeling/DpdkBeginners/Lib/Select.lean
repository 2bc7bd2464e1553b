import Mathlib.Data.List.Basic
import Mathlib.Order.Basic

/-!
# The best of the rules that match

A table of rules is looked up by what they match, and of those that do, one of the highest rank is taken: a rule of the
highest priority, or a route of the longest prefix.  When the ranks decrease along the list, that is the first one.
-/

namespace DpdkBeginners.Lib

variable {ρ β : Type*} [Preorder β]

/-- `best` is a rule of the highest rank among those with `P`, and `none` if there is none. -/
def Selects (rules : List ρ) (P : ρ → Prop) (rank : ρ → β) : Option ρ → Prop
  | none => ∀ r ∈ rules, ¬ P r
  | some best => best ∈ rules ∧ P best ∧ ∀ r ∈ rules, P r → rank r ≤ rank best

/-- **The first rule that matches** is selected, when each rule ranks above the ones behind it. -/
theorem selects_iff {rules : List ρ} {P : ρ → Prop} [DecidablePred P] {rank : ρ → β}
    (hsorted : rules.Pairwise fun a b => rank b < rank a) {best : Option ρ} :
    Selects rules P rank best ↔ best = rules.find? P := by
  induction rules generalizing best with
  | nil => cases best <;> simp [Selects]
  | cons r rules ih =>
    obtain ⟨hlt, hsorted⟩ := List.pairwise_cons.1 hsorted
    by_cases hr : P r
    · rw [List.find?_cons_of_pos (by simpa using hr)]
      constructor
      · intro h
        cases best with
        | none => exact absurd hr (h r List.mem_cons_self)
        | some best =>
          obtain ⟨hmem, -, hmax⟩ := h
          rcases List.mem_cons.1 hmem with rfl | hmem
          · rfl
          · exact absurd (hmax r List.mem_cons_self hr) (hlt best hmem).not_ge
      · rintro rfl
        refine ⟨List.mem_cons_self, hr, fun r' hr' _ => ?_⟩
        rcases List.mem_cons.1 hr' with rfl | hr'
        · exact le_rfl
        · exact (hlt r' hr').le
    · rw [List.find?_cons_of_neg (by simpa using hr), ← ih hsorted]
      cases best with
      | none => simp [Selects, hr]
      | some best =>
        have hne : P best → best ≠ r := by
          rintro hbest rfl
          exact hr hbest
        simp only [Selects, List.mem_cons, forall_eq_or_imp]
        constructor
        · rintro ⟨hmem, hbest, -, hmax⟩
          exact ⟨hmem.resolve_left (hne hbest), hbest, hmax⟩
        · rintro ⟨hmem, hbest, hmax⟩
          exact ⟨.inr hmem, hbest, fun h => absurd h hr, hmax⟩

end DpdkBeginners.Lib
