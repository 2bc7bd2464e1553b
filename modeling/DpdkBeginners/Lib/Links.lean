import Mathlib.Data.List.Nodup
import Mathlib.Logic.Function.Basic

/-!
# Following links

A link function `next : α → Option α`.  `Follows next a l` says that following the links from `a` visits
exactly `l`, in order, and stops at its last element, which has no link.

`relink next l` sets the link of each element of `l` but the last to the element after it.  When `l` is
without repetition, following the new links from its head visits `l` (`follows_relink`), whatever the old
links of other elements are.  When elements are repeated, the link of the last occurrence counts, and what is
visited is a part of `l`, still in order and without repetition (`exists_follows_relink`).
-/

namespace DpdkBeginners.Lib

open Function (update update_self update_of_ne)

variable {α : Type*} {next : α → Option α} {a : α} {l : List α}

/-- Following the links from `a` visits exactly `l`, and stops there. -/
inductive Follows (next : α → Option α) : α → List α → Prop
  | stop {a : α} : next a = none → Follows next a [a]
  | link {a b : α} {l : List α} : next a = some b → Follows next b l → Follows next a (a :: l)

/-! ### Setting the links along a list -/

/-- Link each element of the list to the one after it. -/
def relink [DecidableEq α] (next : α → Option α) : List α → α → Option α
  | a :: b :: l => relink (update next a (some b)) (b :: l)
  | _ => next

variable [DecidableEq α]

theorem relink_of_notMem (h : a ∉ l) : relink next l a = next a := by
  induction l generalizing next with
  | nil => rfl
  | cons b l ih =>
    cases l with
    | nil => rfl
    | cons c l =>
      obtain ⟨hab, hl⟩ : a ≠ b ∧ a ∉ c :: l := by simpa using h
      rw [relink, ih hl, update_of_ne hab]

/-- The link of the last element stays as it is, when it occurs only there. -/
theorem relink_last (h : a ∉ l) : relink next (l ++ [a]) a = next a := by
  induction l generalizing next with
  | nil => rfl
  | cons b l ih =>
    obtain ⟨hab, hl⟩ : a ≠ b ∧ a ∉ l := by simpa using h
    cases l with
    | nil =>
      show relink (update next b (some a)) [a] a = next a
      exact update_of_ne hab _ _
    | cons c l =>
      show relink (update next b (some c)) (c :: l ++ [a]) a = next a
      rw [ih hl, update_of_ne hab]

/-- The links may be set in two parts that share an element. -/
theorem relink_append (next : α → Option α) (l m : List α) (a : α) :
    relink next (l ++ a :: m) = relink (relink next (l ++ [a])) (a :: m) := by
  induction l generalizing next with
  | nil => rfl
  | cons b l ih =>
    cases l with
    | nil => rfl
    | cons c l => exact ih (update next b (some c))

/-- **Following the new links visits the list**, when it is without repetition and its last element has
no link. -/
theorem follows_relink (hl : (a :: l).Nodup) (hlast : next ((a :: l).getLast (by simp)) = none) :
    Follows (relink next (a :: l)) a (a :: l) := by
  induction l generalizing a next with
  | nil => exact .stop hlast
  | cons b l ih =>
    obtain ⟨ha, hb⟩ := List.nodup_cons.1 hl
    have hne : (b :: l).getLast (by simp) ≠ a := fun h => ha (h ▸ List.getLast_mem _)
    refine .link (b := b) ?_ (ih hb ?_)
    · rw [relink, relink_of_notMem ha, update_self]
    · rw [update_of_ne hne]
      simpa using hlast

/-- **Following the new links of a list with repetitions** visits its head, some of its elements in their
order, each once, and its end, when the end occurs only there and has no link.

The induction is on the length: what follows an occurrence of the head is the list that is left. -/
theorem exists_follows_relink {e : α} (he : e ∉ a :: l) (hlast : next e = none) :
    ∃ m, m.Sublist l ∧ (a :: m ++ [e]).Nodup ∧
      Follows (relink next (a :: l ++ [e])) a (a :: m ++ [e]) := by
  induction hlen : l.length using Nat.strongRecOn generalizing a l next with
  | ind len ih =>
    obtain ⟨hea, hel⟩ : e ≠ a ∧ e ∉ l := by simpa using he
    by_cases ha : a ∈ l
    · -- the link of the last occurrence counts: go on from any later one
      obtain ⟨l₁, l₂, rfl⟩ := List.append_of_mem ha
      obtain ⟨hl₁, -, hl₂⟩ : e ∉ l₁ ∧ e ≠ a ∧ e ∉ l₂ := by simpa using hel
      have hnone : relink next (a :: l₁ ++ [a]) e = none := by
        rw [relink_of_notMem (by simp [hea, hl₁]), hlast]
      have hshort : l₂.length < len := by
        rw [← hlen, List.length_append, List.length_cons]
        omega
      have he₂ : e ∉ a :: l₂ := by simp [hea, hl₂]
      obtain ⟨m, hm, hnd, hfollows⟩ := ih _ hshort he₂ hnone rfl
      refine ⟨m, hm.trans ((List.sublist_cons_self a l₂).trans (List.sublist_append_right _ _)), hnd, ?_⟩
      have hsplit : a :: (l₁ ++ a :: l₂) ++ [e] = a :: l₁ ++ a :: (l₂ ++ [e]) := by simp
      rw [hsplit, relink_append]
      exact hfollows
    · cases l with
      | nil =>
        refine ⟨[], List.Sublist.refl _, by simpa using Ne.symm hea, ?_⟩
        show Follows (update next a (some e)) a [a, e]
        exact .link (update_self _ _ _) (.stop ((update_of_ne hea _ _).trans hlast))
      | cons b l =>
        have hnone : update next a (some b) e = none := (update_of_ne hea _ _).trans hlast
        obtain ⟨m, hm, hnd, hfollows⟩ := ih l.length (by simp [← hlen]) hel hnone rfl
        have hmem : a ∉ b :: m ++ [e] := by
          intro h
          rcases List.mem_append.1 h with h | h
          · exact ha ((hm.cons_cons b).subset h)
          · exact hea (List.mem_singleton.1 h).symm
        refine ⟨b :: m, hm.cons_cons b, List.nodup_cons.2 ⟨hmem, hnd⟩, .link (b := b) ?_ hfollows⟩
        have hfree : a ∉ b :: l ++ [e] := by simpa [Ne.symm hea] using ha
        show relink (update next a (some b)) (b :: l ++ [e]) a = some b
        rw [relink_of_notMem hfree, update_self]

end DpdkBeginners.Lib
