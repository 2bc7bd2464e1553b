import Mathlib.Data.PEquiv

/-!
# An index of a heap by a key

A table `ix : κ → Option π` of pointers into a heap `h : π → Option ε`, looked up by a key that each
object of the heap carries.  Two relations between the table and the heap:

* `Sound h key ix`: whatever the table holds points to a live object with that key;
* `Exact h key ix`: and every live object is in the table, under its own key.

Allocation, insertion, update and deletion keep them under the side conditions stated; an exact index
is a partial bijection between keys and live pointers (`Exact.toPEquiv`), so no key has two pointers
and no pointer two keys.
-/

namespace DpdkBeginners.Lib

open Function (update update_self update_of_ne)

variable {κ π ε : Type*} {h : π → Option ε} {key : ε → κ} {ix : κ → Option π}

/-- Whatever the table holds points to a live object with that key. -/
def Sound (h : π → Option ε) (key : ε → κ) (ix : κ → Option π) : Prop :=
  ∀ k p, ix k = some p → ∃ e, h p = some e ∧ key e = k

/-- The table holds the live objects, each under its own key, and nothing else. -/
def Exact (h : π → Option ε) (key : ε → κ) (ix : κ → Option π) : Prop :=
  ∀ k p, ix k = some p ↔ ∃ e, h p = some e ∧ key e = k

theorem Exact.sound (hx : Exact h key ix) : Sound h key ix := fun k p => (hx k p).1

theorem sound_empty : Sound h key fun _ => none := fun _ _ hk => by cases hk

theorem exact_empty (h₀ : ∀ p, h p = none) : Exact h key fun _ => none := by
  intro k p
  simp [h₀]

/-! ### Sound indexes -/

section Sound

variable {p : π} {e : ε}

theorem Sound.alloc [DecidableEq π] (hs : Sound h key ix) (hp : h p = none) :
    Sound (update h p (some e)) key ix := by
  intro k q hq
  obtain ⟨f, hf, rfl⟩ := hs k q hq
  have hqp : q ≠ p := by
    rintro rfl
    simp [hp] at hf
  exact ⟨f, by rw [update_of_ne hqp, hf], rfl⟩

theorem Sound.add [DecidableEq κ] (hs : Sound h key ix) (hp : h p = some e) :
    Sound h key (update ix (key e) (some p)) := by
  intro k q hq
  by_cases hk : k = key e
  · subst hk
    obtain rfl : p = q := by simpa using hq
    exact ⟨e, hp, rfl⟩
  · rw [update_of_ne hk] at hq
    exact hs k q hq

/-- Deleting the key of an object and freeing it leaves no pointer to it. -/
theorem Sound.free [DecidableEq κ] [DecidableEq π] (hs : Sound h key ix) (hp : h p = some e) :
    Sound (update h p none) key (update ix (key e) none) := by
  intro k q hq
  by_cases hk : k = key e
  · subst hk
    simp at hq
  · rw [update_of_ne hk] at hq
    obtain ⟨f, hf, rfl⟩ := hs k q hq
    have hqp : q ≠ p := by
      rintro rfl
      rw [hp] at hf
      exact hk (by cases hf; rfl)
    exact ⟨f, by rw [update_of_ne hqp, hf], rfl⟩

end Sound

/-! ### Exact indexes -/

section Exact

variable {p q : π} {e f : ε}

theorem Exact.inj (hx : Exact h key ix) (hp : h p = some e) (hq : h q = some f)
    (hk : key e = key f) : p = q := by
  have h₁ := (hx (key e) p).2 ⟨e, hp, rfl⟩
  have h₂ := (hx (key e) q).2 ⟨f, hq, hk.symm⟩
  exact Option.some.inj (h₁.symm.trans h₂)

theorem Exact.lookup (hx : Exact h key ix) (hp : h p = some e) : ix (key e) = some p :=
  (hx _ _).2 ⟨e, hp, rfl⟩

theorem Exact.key_ne (hx : Exact h key ix) {k : κ} (hk : ix k = none) (hp : h p = some e) :
    key e ≠ k := by
  rintro rfl
  simp [hx.lookup hp] at hk

theorem Exact.add [DecidableEq κ] [DecidableEq π] (hx : Exact h key ix) (hp : h p = none)
    (hk : ∀ q f, h q = some f → key f ≠ key e) :
    Exact (update h p (some e)) key (update ix (key e) (some p)) := by
  intro k q
  by_cases hqp : q = p
  · subst hqp
    by_cases hke : k = key e
    · subst hke
      simp
    · rw [update_of_ne hke, update_self, hx]
      simp [hp, Ne.symm hke]
  · rw [update_of_ne hqp]
    by_cases hke : k = key e
    · subst hke
      rw [update_self]
      constructor
      · intro h'
        exact absurd (Option.some.inj h').symm hqp
      · rintro ⟨f, hf, hkf⟩
        exact absurd hkf (hk q f hf)
    · rw [update_of_ne hke, hx]

theorem Exact.free [DecidableEq κ] [DecidableEq π] (hx : Exact h key ix) (hp : h p = some e) :
    Exact (update h p none) key (update ix (key e) none) := by
  intro k q
  by_cases hke : k = key e
  · subst hke
    rw [update_self]
    constructor
    · intro h'
      cases h'
    · rintro ⟨f, hf, hkf⟩
      have hqp : q ≠ p := by
        rintro rfl
        simp at hf
      rw [update_of_ne hqp] at hf
      exact absurd (hx.inj hf hp hkf) hqp
  · rw [update_of_ne hke, hx]
    by_cases hqp : q = p
    · subst hqp
      simp [hp, Ne.symm hke]
    · rw [update_of_ne hqp]

theorem Exact.modify [DecidableEq π] (hx : Exact h key ix) (hp : h p = some e)
    (hk : key f = key e) :
    Exact (update h p (some f)) key ix := by
  intro k q
  rw [hx]
  by_cases hqp : q = p
  · subst hqp
    simp [hp, hk]
  · rw [update_of_ne hqp]

end Exact

/-! ### The partial bijection of an exact index -/

/-- **An exact index is a partial bijection** between the keys and the live pointers. -/
def Exact.toPEquiv (hx : Exact h key ix) : κ ≃. π where
  toFun := ix
  invFun p := (h p).map key
  inv k p := by simp [hx k p]

@[simp] theorem Exact.toPEquiv_apply (hx : Exact h key ix) (k : κ) : hx.toPEquiv k = ix k := rfl

@[simp] theorem Exact.toPEquiv_symm_apply (hx : Exact h key ix) (p : π) :
    hx.toPEquiv.symm p = (h p).map key := rfl

end DpdkBeginners.Lib
