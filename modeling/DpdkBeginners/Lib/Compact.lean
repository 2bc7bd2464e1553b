import Mathlib.Data.List.Range
import Mathlib.Data.Nat.Notation
import Mathlib.Tactic.Common

/-!
# Compacting an array in place

A loop reads the entries of an array one after the other and writes each one that it keeps back to the
front of the same array.  Whether an entry is kept may depend on a state that the loop carries along.

The front part never overtakes the index that is read, so the loop reads every entry before it is
overwritten, and the outcome is that of a filter (`compact_state`, `compact_front`).
-/

namespace DpdkBeginners.Lib

variable {σ α : Type*} (keep : σ → α → σ × Bool)

/-- The body of the loop at the index `i`: the state, the array and the length of its front part. -/
def compactStep (t : σ × List α × ℕ) (i : ℕ) : σ × List α × ℕ :=
  match t.2.1[i]? with
  | none => t
  | some x =>
    let (s, kept) := keep t.1 x
    if kept then (s, t.2.1.set t.2.2 x, t.2.2 + 1) else (s, t.2.1, t.2.2)

/-- The loop over the first `n` indices. -/
def compactUpTo (s : σ) (xs : List α) (n : ℕ) : σ × List α × ℕ :=
  (List.range n).foldl (compactStep keep) (s, xs, 0)

/-- The loop. -/
def compact (s : σ) (xs : List α) : σ × List α × ℕ := compactUpTo keep s xs xs.length

/-- What is kept of a list that is read from the front. -/
def sift (s : σ) : List α → σ × List α
  | [] => (s, [])
  | x :: xs =>
    let (s, kept) := keep s x
    let (s, ys) := sift s xs
    (s, if kept then x :: ys else ys)

variable {keep}

theorem sift_concat (s : σ) (xs : List α) (x : α) :
    sift keep s (xs ++ [x]) =
      ((keep (sift keep s xs).1 x).1,
        (sift keep s xs).2 ++ if (keep (sift keep s xs).1 x).2 then [x] else []) := by
  induction xs generalizing s with
  | nil => rfl
  | cons y xs ih =>
    simp only [List.cons_append, sift, ih]
    split <;> rfl

/-- The invariant of the loop. -/
theorem compactUpTo_inv (s : σ) (xs : List α) {n : ℕ} (hn : n ≤ xs.length) :
    ((compactUpTo keep s xs n).1,
        (compactUpTo keep s xs n).2.1.take (compactUpTo keep s xs n).2.2) =
      sift keep s (xs.take n) ∧
    (compactUpTo keep s xs n).2.1.drop n = xs.drop n ∧
    (compactUpTo keep s xs n).2.1.length = xs.length ∧
    (compactUpTo keep s xs n).2.2 ≤ n := by
  induction n with
  | zero => exact ⟨rfl, rfl, rfl, Nat.le_refl 0⟩
  | succ n ih =>
    obtain ⟨hsift, hdrop, hlen, hle⟩ := ih (by omega)
    have hstep : compactUpTo keep s xs (n + 1) =
        compactStep keep (compactUpTo keep s xs n) n := by
      rw [compactUpTo, List.range_succ, List.foldl_append]
      rfl
    rw [hstep]
    generalize compactUpTo keep s xs n = t at hsift hdrop hlen hle ⊢
    obtain ⟨s', ys, out⟩ := t
    simp only at hsift hdrop hlen hle
    have hlt : n < xs.length := hn
    -- the entry that is read has not been overwritten
    have hread : ys[n]? = some xs[n] := by
      have h := congrArg (fun l => l[0]?) hdrop
      simpa [hlt, hlen] using h
    have htake : xs.take (n + 1) = xs.take n ++ [xs[n]] := List.take_succ_eq_append_getElem hlt
    have hdrop' : ys.drop (n + 1) = xs.drop (n + 1) := by
      have h := congrArg List.tail hdrop
      simpa using h
    have hstate : (sift keep s (xs.take n)).1 = s' := by rw [← hsift]
    have hfront : (sift keep s (xs.take n)).2 = ys.take out := by rw [← hsift]
    rw [htake, sift_concat, hstate, hfront]
    simp only [compactStep, hread]
    by_cases hkept : (keep s' xs[n]).2 = true
    · simp only [hkept, if_true]
      refine ⟨?_, ?_, ?_, by omega⟩
      · have hout : out < ys.length := by omega
        rw [List.take_succ_eq_append_getElem (by simpa using hout), List.take_set_of_le (Nat.le_refl _),
          List.getElem_set_self]
      · rw [List.drop_set_of_lt (by omega), hdrop']
      · rw [List.length_set, hlen]
    · simp only [hkept, Bool.false_eq_true, if_false, List.append_nil]
      exact ⟨trivial, hdrop', hlen, by omega⟩

/-- **Compacting is sifting**: the state after the loop. -/
theorem compact_state (s : σ) (xs : List α) : (compact keep s xs).1 = (sift keep s xs).1 := by
  have h := (@compactUpTo_inv _ _ keep s xs _ (Nat.le_refl _)).1
  rw [List.take_length] at h
  exact congrArg Prod.fst h

theorem compact_front (s : σ) (xs : List α) :
    (compact keep s xs).2.1.take (compact keep s xs).2.2 = (sift keep s xs).2 := by
  have h := (@compactUpTo_inv _ _ keep s xs _ (Nat.le_refl _)).1
  rw [List.take_length] at h
  exact congrArg Prod.snd h

theorem compact_out (s : σ) (xs : List α) :
    (compact keep s xs).2.2 = (sift keep s xs).2.length := by
  obtain ⟨-, -, hlen, hle⟩ := @compactUpTo_inv _ _ keep s xs _ (Nat.le_refl _)
  rw [← compact_front, List.length_take]
  unfold compact
  omega

end DpdkBeginners.Lib
