import Mathlib.Data.List.Basic
import Mathlib.Data.Nat.Notation
import Mathlib.Tactic.Common

/-!
# Reading a file with `fgets` and a line with `sscanf`

A program that reads a file with a buffer of `n + 1` bytes gets it in pieces: a piece ends behind a newline
or after `n` bytes, whichever comes first.  A newline always ends a piece, so a file is read line by line,
each line on its own (`reads_append_newline`), and the newline itself matters only if the program looks at it
(`reads_concat_newline`).

`scanWord` is the conversion `%<width>s` and `firstWord` the word that it reads if the width suffices
(`scanWord_eq`).
-/

namespace DpdkBeginners.Lib

abbrev Byte := BitVec 8

/-- `'\n'` -/
def newline : Byte := 10

/-- The bytes of a string literal, without its zero. -/
def ascii (s : String) : List Byte := s.toList.map fun c => BitVec.ofNat 8 c.toNat

variable {n k : ℕ} {f l rest s w : List Byte}

/-! ### `fgets` -/

/-- `fgets` with a buffer of `n + 1` bytes: the bytes that are stored, and the rest of the file.  No bytes are
stored at the end of the file only, where the return value is a null pointer. -/
def fgets : ℕ → List Byte → List Byte × List Byte
  | 0, f => ([], f)
  | _ + 1, [] => ([], [])
  | n + 1, c :: f => if c = newline then ([c], f) else (c :: (fgets n f).1, (fgets n f).2)

/-- What the first `k` calls read. -/
def readsUpTo (n : ℕ) : ℕ → List Byte → List (List Byte)
  | 0, _ => []
  | k + 1, f => if (fgets n f).1 = [] then [] else (fgets n f).1 :: readsUpTo n k (fgets n f).2

/-- What is read until `fgets` returns a null pointer; a call reads one byte at least. -/
def reads (n : ℕ) (f : List Byte) : List (List Byte) := readsUpTo n f.length f

theorem fgets_append (n : ℕ) (f : List Byte) : (fgets n f).1 ++ (fgets n f).2 = f := by
  fun_induction fgets n f with
  | case1 => rfl
  | case2 => rfl
  | case3 => rfl
  | case4 n c f hc ih => rw [List.cons_append, ih]

theorem fgets_eq_nil : (fgets (n + 1) f).1 = [] ↔ f = [] := by
  cases f with
  | nil => simp [fgets]
  | cons c f =>
    rw [fgets]
    split_ifs <;> simp

theorem fgets_append_left (hl : newline ∉ l) (hlen : l.length ≤ n) (rest : List Byte) :
    fgets n (l ++ rest) =
      (l ++ (fgets (n - l.length) rest).1, (fgets (n - l.length) rest).2) := by
  induction l generalizing n with
  | nil => rfl
  | cons c l ih =>
    rw [List.length_cons] at hlen
    obtain ⟨n, rfl⟩ : ∃ n', n = n' + 1 := ⟨n - 1, by omega⟩
    have hc := List.ne_of_not_mem_cons hl
    rw [List.cons_append, fgets, if_neg (Ne.symm hc), ih (List.not_mem_of_not_mem_cons hl) (by omega),
      List.length_cons, Nat.add_sub_add_right]
    rfl

theorem fgets_line (hl : newline ∉ l) (hlen : l.length < n) :
    fgets n (l ++ newline :: rest) = (l ++ [newline], rest) := by
  obtain ⟨m, hm⟩ : ∃ m, n - l.length = m + 1 := ⟨n - l.length - 1, by omega⟩
  rw [fgets_append_left hl (Nat.le_of_lt hlen), hm, fgets, if_pos rfl]

/-- A line that does not fit is read in part. -/
theorem fgets_part (hl : newline ∉ l) (hlen : n ≤ l.length) :
    fgets n (l ++ rest) = (l.take n, l.drop n ++ rest) := by
  have htake : newline ∉ l.take n := fun h => hl (List.mem_of_mem_take h)
  have hn : (l.take n).length = n := List.length_take_of_le hlen
  have hread := fgets_append_left htake (Nat.le_of_eq hn) (l.drop n ++ rest)
  rw [← List.append_assoc, List.take_append_drop, hn, Nat.sub_self] at hread
  rw [hread, fgets, List.append_nil]

/-- The last line of a file may have no newline. -/
theorem fgets_last (hl : newline ∉ l) (hlen : l.length < n) : fgets n l = (l, []) := by
  obtain ⟨m, hm⟩ : ∃ m, n - l.length = m + 1 := ⟨n - l.length - 1, by omega⟩
  have hread := fgets_append_left hl (Nat.le_of_lt hlen) []
  rwa [List.append_nil, hm, fgets, List.append_nil] at hread

theorem prefix_fgets (hw : newline ∉ w) (hlen : w.length ≤ n) : w <+: (fgets n f).1 ↔ w <+: f := by
  constructor
  · exact fun h => h.trans ⟨_, fgets_append n f⟩
  · rintro ⟨t, rfl⟩
    rw [fgets_append_left hw hlen]
    exact List.prefix_append _ _

/-- The zero that `fgets` stores behind a piece ends it. -/
theorem prefix_append_zero (hw : 0 ∉ w) : w <+: l ++ 0 :: rest ↔ w <+: l := by
  constructor
  · intro h
    by_cases hlen : w.length ≤ l.length
    · exact List.prefix_of_prefix_length_le h (List.prefix_append _ _) hlen
    · have hzero : l ++ [0] <+: w := by
        refine List.prefix_of_prefix_length_le ⟨rest, ?_⟩ h ?_
        · rw [List.append_assoc]
          rfl
        · rw [List.length_append, List.length_singleton]
          omega
      exact absurd (hzero.subset (by simp)) hw
  · exact fun h => h.trans (List.prefix_append _ _)

/-! ### The pieces of a file -/

theorem readsUpTo_eq (hk : f.length ≤ k) : readsUpTo (n + 1) k f = reads (n + 1) f := by
  unfold reads
  induction k using Nat.strongRecOn generalizing f with
  | ind k ih =>
    cases hf : f with
    | nil => cases k <;> simp [readsUpTo, fgets]
    | cons c f' =>
      obtain ⟨k, rfl⟩ : ∃ k', k = k' + 1 := ⟨k - 1, by simp [hf] at hk; omega⟩
      have hne : (fgets (n + 1) (c :: f')).1 ≠ [] := fgets_eq_nil.not.2 (by simp)
      have hsplit := congrArg List.length (fgets_append (n + 1) (c :: f'))
      have hpos := List.length_pos_iff.2 hne
      rw [List.length_append, List.length_cons] at hsplit
      simp only [hf, List.length_cons] at hk
      rw [readsUpTo, if_neg hne, List.length_cons, readsUpTo, if_neg hne, ih k (by omega) (by omega)]
      congr 1
      by_cases hlt : f'.length < k + 1
      · exact (ih f'.length hlt (by omega)).symm
      · exact absurd hk (by omega)

theorem reads_cons (hf : f ≠ []) :
    reads (n + 1) f = (fgets (n + 1) f).1 :: reads (n + 1) (fgets (n + 1) f).2 := by
  have hne : (fgets (n + 1) f).1 ≠ [] := fgets_eq_nil.not.2 hf
  have hsplit := congrArg List.length (fgets_append (n + 1) f)
  have hpos := List.length_pos_iff.2 hne
  rw [List.length_append] at hsplit
  obtain ⟨k, hk⟩ : ∃ k, f.length = k + 1 := ⟨f.length - 1, by omega⟩
  rw [reads, hk, readsUpTo, if_neg hne, readsUpTo_eq (by omega)]

/-- **A file is read line by line.** -/
theorem reads_append_newline (hl : newline ∉ l) (rest : List Byte) :
    reads (n + 1) (l ++ newline :: rest) = reads (n + 1) (l ++ [newline]) ++ reads (n + 1) rest := by
  induction hlen : l.length using Nat.strongRecOn generalizing l with
  | ind len ih =>
    rw [reads_cons (by simp), @reads_cons n (l ++ [newline]) (by simp)]
    by_cases hfits : l.length < n + 1
    · rw [fgets_line hl hfits, fgets_line hl hfits]
      rfl
    · have hpart : ∀ rest, fgets (n + 1) (l ++ rest) = _ := fun _ => fgets_part hl (by omega)
      have hdrop : newline ∉ l.drop (n + 1) := fun h => hl (List.mem_of_mem_drop h)
      rw [hpart, hpart, ih _ (by rw [List.length_drop]; omega) hdrop rfl, List.cons_append]

theorem reads_part (hl : newline ∉ l) (hlen : n + 1 ≤ l.length) :
    reads (n + 1) l = l.take (n + 1) :: reads (n + 1) (l.drop (n + 1)) := by
  have hne : l ≠ [] := by
    rintro rfl
    simp at hlen
  have hpart := @fgets_part _ _ [] hl hlen
  rw [List.append_nil, List.append_nil] at hpart
  rw [reads_cons hne, hpart]

theorem reads_last (hl : newline ∉ l) (hne : l ≠ []) (hlen : l.length ≤ n + 1) :
    reads (n + 1) l = [l] := by
  by_cases hfits : l.length < n + 1
  · rw [reads_cons hne, fgets_last hl hfits]
    rfl
  · rw [reads_part hl (by omega), List.take_of_length_le hlen, List.drop_of_length_le hlen]
    rfl

/-- **The newline of a line** makes no difference to a program that ignores it. -/
theorem reads_concat_newline {β : Type*} (g : List Byte → Option β) (hnil : g [newline] = none)
    (hg : ∀ l, newline ∉ l → l ≠ [] → g (l ++ [newline]) = g l) (hl : newline ∉ l) :
    (reads (n + 1) (l ++ [newline])).filterMap g = (reads (n + 1) l).filterMap g := by
  induction hlen : l.length using Nat.strongRecOn generalizing l with
  | ind len ih =>
    rw [reads_cons (by simp)]
    by_cases hfits : l.length < n + 1
    · rw [fgets_line hl hfits]
      by_cases hne : l = []
      · subst hne
        simp [hnil, reads, readsUpTo]
      · rw [reads_last hl hne (by omega), List.filterMap_cons, List.filterMap_cons, hg l hl hne]
        rfl
    · have hdrop : newline ∉ l.drop (n + 1) := fun h => hl (List.mem_of_mem_drop h)
      rw [fgets_part hl (by omega), reads_part hl (by omega), List.filterMap_cons,
        List.filterMap_cons, ih _ (by rw [List.length_drop]; omega) hdrop rfl]

/-! ### `sscanf` -/

/-- `isspace`, in the C locale. -/
def isSpace (c : Byte) : Bool := c = 32 || (9 ≤ c && c ≤ 13)

/-- A buffer as a string ends at its first zero. -/
def cString (s : List Byte) : List Byte := s.takeWhile fun c => c ≠ 0

/-- The first word of a string, empty if there is none, and what follows it. -/
def firstWord (s : List Byte) : List Byte × List Byte :=
  let s := s.dropWhile isSpace
  (s.takeWhile fun c => ! isSpace c, s.dropWhile fun c => ! isSpace c)

/-- The conversion `%<width>s`: the word that is stored and what follows it. -/
def scanWord (width : ℕ) (s : List Byte) : Option (List Byte × List Byte) :=
  let s := s.dropWhile isSpace
  let w := (s.takeWhile fun c => ! isSpace c).take width
  if w = [] then none else some (w, s.drop w.length)

/-- `sscanf(s, "%<width>s %<width>s", …)`, when it returns 2. -/
def scanTwo (width : ℕ) (s : List Byte) : Option (List Byte × List Byte) :=
  match scanWord width s with
  | none => none
  | some (a, s) =>
    match scanWord width s with
    | none => none
    | some (b, _) => some (a, b)

/-- The first two words of a string. -/
def twoWords (s : List Byte) : Option (List Byte × List Byte) :=
  let (a, s) := firstWord s
  let (b, _) := firstWord s
  if a = [] ∨ b = [] then none else some (a, b)

theorem scanWord_eq {width : ℕ} (h : (firstWord s).1.length ≤ width) :
    scanWord width s = if (firstWord s).1 = [] then none else some (firstWord s) := by
  unfold scanWord firstWord at *
  generalize s.dropWhile isSpace = s at h ⊢
  have hsplit := @List.takeWhile_append_dropWhile _ (fun c => ! isSpace c) s
  have hdrop : ∀ a b, a ++ b = s → s.drop a.length = b := by
    rintro a b rfl
    exact List.drop_left
  simp only at h ⊢
  rw [List.take_of_length_le h, hdrop _ _ hsplit]

theorem scanTwo_eq {width : ℕ} (h : (firstWord s).1.length ≤ width)
    (h' : ∀ w, twoWords s = some w → w.2.length ≤ width) : scanTwo width s = twoWords s := by
  have htwo : twoWords s = if (firstWord s).1 = [] ∨ (firstWord (firstWord s).2).1 = [] then none
      else some ((firstWord s).1, (firstWord (firstWord s).2).1) := rfl
  rw [htwo] at h' ⊢
  unfold scanTwo
  rw [scanWord_eq h]
  by_cases ha : (firstWord s).1 = []
  · rw [if_pos ha, if_pos (.inl ha)]
  · rw [if_neg ha]
    by_cases hb : (firstWord (firstWord s).2).1 = []
    · have hscan : scanWord width (firstWord s).2 = none := by
        rw [scanWord_eq (by simp [hb]), if_pos hb]
      rw [if_pos (.inr hb)]
      simp only [hscan]
    · rw [if_neg (not_or.2 ⟨ha, hb⟩)] at h' ⊢
      have hscan : scanWord width (firstWord s).2 = some (firstWord (firstWord s).2) := by
        rw [scanWord_eq (h' _ rfl), if_neg hb]
      simp only [hscan]

/-! ### White space at the end -/

section Space

variable {c : Byte}

theorem takeWhile_concat_space (hc : isSpace c = true) (s : List Byte) :
    ((s ++ [c]).takeWhile fun c => ! isSpace c) = s.takeWhile fun c => ! isSpace c := by
  have hlast : ([c].takeWhile fun c => ! isSpace c) = [] := by simp [hc]
  rw [List.takeWhile_append, hlast, List.append_nil]
  split_ifs with hlen
  · exact ((List.takeWhile_sublist _).eq_of_length hlen).symm
  · rfl

theorem scanWord_concat_space (hc : isSpace c = true) (width : ℕ) (s : List Byte) :
    scanWord width (s ++ [c]) = (scanWord width s).map fun x => (x.1, x.2 ++ [c]) := by
  have hlast : [c].dropWhile isSpace = [] := by simp [hc]
  unfold scanWord
  rw [List.dropWhile_append, hlast]
  generalize s.dropWhile isSpace = t
  cases t with
  | nil => simp
  | cons x t =>
    have hle : (((x :: t).takeWhile fun c => ! isSpace c).take width).length ≤ (x :: t).length :=
      ((List.take_sublist _ _).trans (List.takeWhile_sublist _)).length_le
    simp only [List.isEmpty_cons, Bool.false_eq_true, if_false, takeWhile_concat_space hc]
    split_ifs with hw
    · rfl
    · rw [List.drop_append_of_le_length hle]
      rfl

theorem scanTwo_concat_space (hc : isSpace c = true) (width : ℕ) (s : List Byte) :
    scanTwo width (s ++ [c]) = scanTwo width s := by
  unfold scanTwo
  rw [scanWord_concat_space hc]
  cases scanWord width s with
  | none => rfl
  | some x =>
    obtain ⟨a, r⟩ := x
    simp only [Option.map_some]
    rw [scanWord_concat_space hc]
    cases scanWord width r <;> rfl

end Space

end DpdkBeginners.Lib
