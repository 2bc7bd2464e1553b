import DpdkBeginners.Lib.Stdio
import DpdkBeginners.Pool.Defs
import Mathlib.Data.List.TakeWhile

/-!
# The file of the static mappings

`nat_inbound_load_from_file` of `nat_project/version5` reads its file with a buffer of 64 bytes and treats
each piece that `fgets` returns as a line, and `nat_inbound_add` does not look at what `inet_pton` returns.
So the tail of a long line, a comment among them, is read as a line of its own, a word that is longer than 31
bytes is read as two, and an invalid address is whatever the memory holds (`junk`).

* `Decides`: the pieces that are read leave one private address for a public one, or none.
* `ReadsRight`: the pieces of a line give the mapping that the line gives, and nothing else.
* `inbound_file`: the file is read as it should be exactly if its pieces decide each address as its lines do,
  which is so if all its lines are `ReadsRight`.
* `Fits.readsRight`: lines that fit the buffers and hold valid addresses are `ReadsRight`.
-/

namespace DpdkBeginners.Pool

open DpdkBeginners.Rte DpdkBeginners.Lib

variable {addr range : U32} {hz : U64} {l file : List Byte} {a b : U32}

/-! ### Addresses -/

/-- `'#'`, `'.'` and `'0'` -/
def hash : Byte := 35
def dot : Byte := 46
def zero : Byte := 48

/-- A number of one to three decimal digits that fits a byte; like the C library, without leading zeros. -/
def decimal (s : List Byte) : Option U8 :=
  let value := s.foldl (fun v c => 10 * v + (c.toNat - zero.toNat)) 0
  if 1 ≤ s.length ∧ s.length ≤ 3 ∧ (s.head? = some zero → s.length = 1) ∧ s.all (fun c => 48 ≤ c && c ≤ 57) ∧
      value ≤ 255 then
    some (BitVec.ofNat 8 value)
  else none

/-- `inet_pton(AF_INET, …)`: a dotted quad, in network order; `none` is the return value 0. -/
def inetPton (s : List Byte) : Option U32 :=
  match s.splitOn dot with
  | [a, b, c, d] =>
    match decimal a, decimal b, decimal c, decimal d with
    | some a, some b, some c, some d => some (netAddr a b c d)
    | _, _, _, _ => none
  | _ => none

/-- `01.1.1.1` -/
example : inetPton [48, 49, 46, 49, 46, 49, 46, 49] = none := by decide

/-! ### The reader -/

/-- `sizeof(line) - 1` and the width of the two conversions. -/
abbrev maxLine : ℕ := 63
abbrev maxWord : ℕ := 31

/-- The body of the loop: the two words that `nat_inbound_add` is called with. -/
def readLine (line : List Byte) : Option (List Byte × List Byte) :=
  if line.head? = some newline ∨ line.head? = some hash then none
  else scanTwo maxWord (cString line)

/-- The addresses that `nat_inbound_add` stores: one that `inet_pton` rejects is not written. -/
def stored (junk : U32 × U32) (w : List Byte × List Byte) : U32 × U32 :=
  ((inetPton w.1).getD junk.1, (inetPton w.2).getD junk.2)

/-- The loop over what has been read; `junk` is what the memory of each new entry holds. -/
def natInboundLoad (junk : ℕ → U32 × U32) (pool : NatPool) (count : ℕ) : List (List Byte) → NatPool
  | [] => pool
  | line :: lines =>
    match readLine line with
    | none => natInboundLoad junk pool count lines
    | some w =>
      let x := stored (junk count) w
      natInboundLoad junk (natInboundAdd pool x.1 x.2) (count + 1) lines

/-- `nat_inbound_load_from_file`, of a file that can be opened. -/
def natInboundLoadFromFile (junk : ℕ → U32 × U32) (pool : NatPool) (file : List Byte) : NatPool :=
  natInboundLoad junk pool 0 (reads maxLine file)

/-! ### What it should do -/

/-- The mapping that a line gives. -/
def mapping (l : List Byte) : Option (U32 × U32) :=
  if l.head? = some hash then none
  else
    match twoWords l with
    | none => none
    | some (a, b) =>
      match inetPton a, inetPton b with
      | some a, some b => some (a, b)
      | _, _ => none

/-- The mappings of a file. -/
def mappings (file : List Byte) : List (U32 × U32) := (file.splitOn newline).filterMap mapping

/-- The last mapping of a public address. -/
def lastMapping (ms : List (U32 × U32)) (pub : U32) : Option U32 :=
  ((ms.filter fun x => x.1 = pub).getLast?).map Prod.snd

/-- The private address that a public one is mapped to. -/
def privateOf (pool : NatPool) (pub : U32) : Option U32 :=
  (pool.inboundMap pub).map NatInboundEntry.privateIp

/-- `inbound_map` holds exactly these mappings, where a later one overrides an earlier one. -/
def HoldsExactly (pool : NatPool) (ms : List (U32 × U32)) : Prop :=
  ∀ pub, privateOf pool pub = lastMapping ms pub

/-- The pairs of words that are read of a line. -/
def wordPairs (l : List Byte) : List (List Byte × List Byte) := (reads maxLine l).filterMap readLine

/-- The pieces of a line are read right: none has two words if the line gives no mapping, and otherwise one
has, the first word of each such piece is the public address and the second word of the last one the private
address. -/
def ReadsRight (l : List Byte) : Prop :=
  match mapping l with
  | none => wordPairs l = []
  | some (pub, priv) => (∀ w ∈ wordPairs l, inetPton w.1 = some pub) ∧
      ((wordPairs l).getLast?).bind (fun w => inetPton w.2) = some priv

/-! ### One mapping after the other -/

/-- One more mapping. -/
def put (f : U32 → Option U32) (x : U32 × U32) : U32 → Option U32 := Function.update f x.1 (some x.2)

theorem privateOf_natInboundAdd (pool : NatPool) (x : U32 × U32) :
    privateOf (natInboundAdd pool x.1 x.2) = put (privateOf pool) x := by
  funext pub
  unfold privateOf put natInboundAdd
  by_cases h : pub = x.1
  · subst h
    simp [rteHashAddKeyData]
  · simp [rteHashAddKeyData, h]

theorem lastMapping_concat (ms : List (U32 × U32)) (x : U32 × U32) :
    lastMapping (ms ++ [x]) = put (lastMapping ms) x := by
  funext pub
  unfold lastMapping put
  by_cases h : x.1 = pub
  · subst h
    simp
  · simp [h, Ne.symm h]

theorem lastMapping_eq (ms : List (U32 × U32)) : lastMapping ms = ms.foldl put fun _ => none := by
  induction ms using List.reverseRecOn with
  | nil => rfl
  | append_singleton ms x ih =>
    rw [lastMapping_concat, ih, List.foldl_append, List.foldl_cons, List.foldl_nil]

theorem foldl_put_same {pub : U32} {xs : List (U32 × U32)} (h : ∀ x ∈ xs, x.1 = pub) (priv : U32)
    (f : U32 → Option U32) : (xs ++ [(pub, priv)]).foldl put f = put f (pub, priv) := by
  induction xs generalizing f with
  | nil => rfl
  | cons x xs ih =>
    rw [List.cons_append, List.foldl_cons, ih fun y hy => h y (List.mem_cons_of_mem _ hy)]
    unfold put
    rw [h x (List.mem_cons_self ..), Function.update_idem]

/-! ### What is stored -/

/-- The mappings that are stored for these words, of which the first is the `n`-th of the file. -/
def storedAll (junk : ℕ → U32 × U32) (n : ℕ) : List (List Byte × List Byte) → List (U32 × U32)
  | [] => []
  | w :: ws => stored (junk n) w :: storedAll junk (n + 1) ws

theorem storedAll_append (junk : ℕ → U32 × U32) (n : ℕ) (ws vs : List (List Byte × List Byte)) :
    storedAll junk n (ws ++ vs) = storedAll junk n ws ++ storedAll junk (n + ws.length) vs := by
  induction ws generalizing n with
  | nil => rfl
  | cons w ws ih =>
    rw [List.cons_append, storedAll, storedAll, ih, List.length_cons, List.cons_append]
    congr 3
    omega

theorem exists_of_mem_storedAll {junk : ℕ → U32 × U32} {n : ℕ} {ws : List (List Byte × List Byte)}
    {x : U32 × U32} (h : x ∈ storedAll junk n ws) :
    ∃ w ∈ ws, ∃ k, n ≤ k ∧ x = stored (junk k) w := by
  induction ws generalizing n with
  | nil => simp [storedAll] at h
  | cons w ws ih =>
    rcases List.mem_cons.1 h with rfl | h
    · exact ⟨w, List.mem_cons_self .., n, le_refl n, rfl⟩
    · obtain ⟨v, hv, k, hk, hx⟩ := ih h
      exact ⟨v, List.mem_cons_of_mem _ hv, k, by omega, hx⟩

theorem privateOf_natInboundLoad (junk : ℕ → U32 × U32) (pool : NatPool) (n : ℕ)
    (lines : List (List Byte)) :
    privateOf (natInboundLoad junk pool n lines) =
      (storedAll junk n (lines.filterMap readLine)).foldl put (privateOf pool) := by
  induction lines generalizing pool n with
  | nil => rfl
  | cons line lines ih =>
    unfold natInboundLoad
    cases hw : readLine line with
    | none => simp only [List.filterMap_cons, hw, ih]
    | some w =>
      simp only [List.filterMap_cons, hw, ih, storedAll, List.foldl_cons, privateOf_natInboundAdd]

/-! ### One line -/

theorem readLine_concat_newline (hl : newline ∉ l) (hne : l ≠ []) :
    readLine (l ++ [newline]) = readLine l := by
  have hhead : (l ++ [newline]).head? = l.head? := by
    cases l with
    | nil => exact absurd rfl hne
    | cons c l => rfl
  have hscan : scanTwo maxWord (cString (l ++ [newline])) = scanTwo maxWord (cString l) := by
    unfold cString
    rw [List.takeWhile_append]
    split_ifs with hlen
    · have hself := (List.takeWhile_sublist _).eq_of_length hlen
      rw [hself]
      exact scanTwo_concat_space rfl maxWord l
    · rfl
  unfold readLine
  rw [hhead, hscan]

theorem wordPairs_concat_newline (hl : newline ∉ l) : wordPairs (l ++ [newline]) = wordPairs l :=
  reads_concat_newline readLine rfl (fun _ => readLine_concat_newline) hl

/-- **A line that is read right** has the effect of its mapping. -/
theorem ReadsRight.foldl_put (h : ReadsRight l) (junk : ℕ → U32 × U32) (n : ℕ)
    (f : U32 → Option U32) :
    (storedAll junk n (wordPairs l)).foldl put f = (mapping l).toList.foldl put f := by
  unfold ReadsRight at h
  cases hm : mapping l with
  | none =>
    simp only [hm] at h
    rw [h]
    rfl
  | some x =>
    obtain ⟨pub, priv⟩ := x
    simp only [hm] at h
    obtain ⟨hpub, hlast⟩ := h
    obtain ⟨w, hw, hpriv⟩ := Option.bind_eq_some_iff.1 hlast
    obtain ⟨ws, hws⟩ := List.getLast?_eq_some_iff.1 hw
    have hstored : ∀ k, ∀ v ∈ wordPairs l, (stored (junk k) v).1 = pub := by
      intro k v hv
      rw [stored, hpub v hv, Option.getD_some]
    have hend : ∀ k, stored (junk k) w = (pub, priv) := by
      intro k
      have hfst := hstored k w (by rw [hws]; simp)
      exact Prod.ext hfst (by rw [stored, hpriv, Option.getD_some])
    rw [hws, storedAll_append, storedAll, storedAll, hend]
    refine foldl_put_same ?_ priv f
    intro x hx
    obtain ⟨v, hv, k, -, rfl⟩ := exists_of_mem_storedAll hx
    exact hstored k v (by rw [hws]; exact List.mem_append_left _ hv)

/-- **A file whose lines are read right.** -/
theorem foldl_put_file {file : List Byte} (h : ∀ l ∈ file.splitOn newline, ReadsRight l)
    (junk : ℕ → U32 × U32) (n : ℕ) (f : U32 → Option U32) :
    (storedAll junk n (wordPairs file)).foldl put f = (mappings file).foldl put f := by
  induction hlen : file.length using Nat.strongRecOn generalizing file n f with
  | ind len ih =>
    by_cases hmem : newline ∈ file
    · obtain ⟨l, rest, rfl, hl⟩ := List.eq_append_cons_of_mem hmem
      have hsplit : (l ++ newline :: rest).splitOn newline = l :: rest.splitOn newline :=
        List.splitOn_append_cons_self_of_not_mem hl _
      rw [hsplit] at h
      have hpairs : wordPairs (l ++ newline :: rest) = wordPairs l ++ wordPairs rest := by
        rw [← wordPairs_concat_newline hl, wordPairs, reads_append_newline hl, List.filterMap_append]
        rfl
      have hmaps : mappings (l ++ newline :: rest) = (mapping l).toList ++ mappings rest := by
        rw [mappings, hsplit, List.filterMap_cons]
        cases mapping l <;> rfl
      have hrest := @ih rest.length (by rw [← hlen, List.length_append, List.length_cons]; omega) rest
        (fun l hl => h l (List.mem_cons_of_mem _ hl)) (n + (wordPairs l).length)
      rw [hpairs, hmaps, storedAll_append, List.foldl_append, List.foldl_append,
        (h l (List.mem_cons_self ..)).foldl_put, hrest _ rfl]
    · have hsplit : file.splitOn newline = [file] := List.splitOn_eq_singleton hmem
      have hmaps : mappings file = (mapping file).toList := by
        rw [mappings, hsplit]
        cases hm : mapping file <;> simp [hm]
      rw [hmaps]
      exact (h file (by rw [hsplit]; simp)).foldl_put junk n f

/-! ### Lines that fit -/

/-- The line fits the buffer and holds no zero, and unless it is a comment its first word fits its buffer and
its first two words are valid addresses. -/
structure Fits (l : List Byte) : Prop where
  short : l.length ≤ maxLine
  noNul : 0 ∉ l
  words : l.head? ≠ some hash → (firstWord l).1.length ≤ maxWord ∧
    ∀ w, twoWords l = some w → inetPton w.1 ≠ none ∧ inetPton w.2 ≠ none

theorem decimal_length {s : List Byte} {v : U8} (h : decimal s = some v) : s.length ≤ 3 := by
  unfold decimal at h
  simp only at h
  split_ifs at h with hs
  exact hs.2.1

theorem inetPton_length {s : List Byte} {ip : U32} (h : inetPton s = some ip) : s.length ≤ 15 := by
  have hjoin : [dot].intercalate (s.splitOn dot) = s := List.intercalate_splitOn dot
  unfold inetPton at h
  split at h
  · next a b c d hs =>
    split at h
    · next ha hb hc hd =>
      have hlen := congrArg List.length hjoin
      have hla := decimal_length ha
      have hlb := decimal_length hb
      have hlc := decimal_length hc
      have hld := decimal_length hd
      rw [hs] at hlen
      simp [List.intercalate] at hlen
      omega
    · cases h
  · cases h

theorem cString_eq (h : 0 ∉ l) : cString l = l := by
  unfold cString
  rw [List.takeWhile_eq_self_iff]
  intro c hc
  simpa using fun hzero : c = 0 => h (hzero ▸ hc)

/-- **A line that fits is read right.** -/
theorem Fits.readsRight (h : Fits l) (hl : newline ∉ l) : ReadsRight l := by
  have hpairs : wordPairs l = (readLine l).toList := by
    by_cases hne : l = []
    · subst hne
      rfl
    · rw [wordPairs, reads_last hl hne h.short]
      cases hr : readLine l <;> simp [hr]
  have hnl : l.head? ≠ some newline := fun hhead => hl (List.mem_of_mem_head? hhead)
  unfold ReadsRight mapping
  by_cases hhash : l.head? = some hash
  · rw [if_pos hhash]
    simp [hpairs, readLine, hhash]
  · obtain ⟨hfirst, hvalid⟩ := h.words hhash
    have hread : readLine l = twoWords l := by
      rw [readLine, if_neg (not_or.2 ⟨hnl, hhash⟩), cString_eq h.noNul]
      refine scanTwo_eq hfirst ?_
      intro w hw
      obtain ⟨ip, hip⟩ := Option.ne_none_iff_exists'.1 (hvalid w hw).2
      exact Nat.le_trans (inetPton_length hip) (by decide)
    rw [if_neg hhash, hpairs, hread]
    cases hw : twoWords l with
    | none => rfl
    | some w =>
      obtain ⟨hpub, hpriv⟩ := hvalid w hw
      obtain ⟨pub, hpub⟩ := Option.ne_none_iff_exists'.1 hpub
      obtain ⟨priv, hpriv⟩ := Option.ne_none_iff_exists'.1 hpriv
      simp [hpub, hpriv]

/-! ### What the file is read as -/

/-- The pieces `ws` decide the private address of `pub`.  Either none of them has `pub`, or an invalid
address, as its first word, or the last one that has `pub` has a valid second word, and the pieces behind it
whose first word is invalid have the same second word. -/
def Decides (ws : List (List Byte × List Byte)) (pub : U32) : Option U32 → Prop
  | none => ∀ w ∈ ws, inetPton w.1 ≠ some pub ∧ inetPton w.1 ≠ none
  | some priv => ∃ xs w ys, ws = xs ++ w :: ys ∧ inetPton w.1 = some pub ∧ inetPton w.2 = some priv ∧
      ∀ y ∈ ys, inetPton y.1 ≠ some pub ∧ (inetPton y.1 = none → inetPton y.2 = some priv)

theorem foldl_put_keep {pub : U32} {v : Option U32} {xs : List (U32 × U32)}
    (h : ∀ x ∈ xs, x.1 = pub → v = some x.2) {f : U32 → Option U32} (hf : f pub = v) :
    xs.foldl put f pub = v := by
  induction xs generalizing f with
  | nil => exact hf
  | cons x xs ih =>
    rw [List.foldl_cons]
    apply ih fun y hy => h y (List.mem_cons_of_mem _ hy)
    by_cases hx : pub = x.1
    · rw [put, hx, Function.update_self, h x (List.mem_cons_self ..) hx.symm]
    · rw [put, Function.update_of_ne hx, hf]

theorem foldl_put_storedAll_keep {pub : U32} {v : Option U32} {junk : ℕ → U32 × U32} {n : ℕ}
    {ws : List (List Byte × List Byte)}
    (h : ∀ w ∈ ws, ∀ k, n ≤ k → (stored (junk k) w).1 = pub → v = some (stored (junk k) w).2)
    {f : U32 → Option U32} (hf : f pub = v) : (storedAll junk n ws).foldl put f pub = v := by
  apply foldl_put_keep _ hf
  intro x hx
  obtain ⟨w, hw, k, hk, rfl⟩ := exists_of_mem_storedAll hx
  exact h w hw k hk

/-- **Whatever the memory holds**, the address comes out as the pieces decide. -/
theorem Decides.foldl_put {ws : List (List Byte × List Byte)} {pub : U32} {v : Option U32}
    (h : Decides ws pub v) (junk : ℕ → U32 × U32) (n : ℕ) :
    (storedAll junk n ws).foldl put (fun _ => none) pub = v := by
  cases v with
  | none =>
    apply foldl_put_storedAll_keep _ rfl
    intro w hw k _ hk
    obtain ⟨ip, hip⟩ := Option.ne_none_iff_exists'.1 (h w hw).2
    rw [stored, hip, Option.getD_some] at hk
    exact absurd (hk ▸ hip) (h w hw).1
  | some priv =>
    obtain ⟨xs, w, ys, rfl, hpub, hpriv, hys⟩ := h
    rw [storedAll_append, List.foldl_append, storedAll, List.foldl_cons]
    apply foldl_put_storedAll_keep
    · intro y hy k _ hk
      obtain ⟨hne, hsame⟩ := hys y hy
      cases hip : inetPton y.1 with
      | none => rw [stored, hsame hip, Option.getD_some]
      | some ip =>
        rw [stored, hip, Option.getD_some] at hk
        exact absurd (hk ▸ hip) hne
    · rw [put, stored, hpub, hpriv, Option.getD_some, Option.getD_some, Function.update_self]

/-- Memory that holds `pub` for the `k`-th entry only. -/
def junkAt (k : ℕ) (pub q : U32) (n : ℕ) : U32 × U32 := if n = k then (pub, q) else (pub + 1, q)

theorem stored_ne {junk : U32 × U32} {pub : U32} {w : List Byte × List Byte} (hj : junk.1 ≠ pub)
    (hw : inetPton w.1 ≠ some pub) : (stored junk w).1 ≠ pub := by
  unfold stored
  cases hip : inetPton w.1 with
  | none => simpa using hj
  | some ip => simpa [hip] using hw

/-- A piece that may store `pub` does so for some content of the memory, and no piece behind it that has
another first word overrides it. -/
theorem foldl_put_junkAt {xs ys : List (List Byte × List Byte)} {w : List Byte × List Byte} {pub : U32}
    (hw : inetPton w.1 = some pub ∨ inetPton w.1 = none) (hys : ∀ y ∈ ys, inetPton y.1 ≠ some pub)
    (q : U32) :
    (storedAll (junkAt xs.length pub q) 0 (xs ++ w :: ys)).foldl put (fun _ => none) pub =
      some ((inetPton w.2).getD q) := by
  have hpub : (stored (junkAt xs.length pub q xs.length) w).1 = pub := by
    rw [stored, junkAt, if_pos rfl]
    rcases hw with hw | hw <;> simp [hw]
  have hpriv : (stored (junkAt xs.length pub q xs.length) w).2 = (inetPton w.2).getD q := by
    rw [stored, junkAt, if_pos rfl]
  rw [storedAll_append, List.foldl_append, storedAll, List.foldl_cons, Nat.zero_add]
  apply foldl_put_storedAll_keep
  · intro y hy k hk hstored
    have hj : (junkAt xs.length pub q k).1 ≠ pub := by
      rw [junkAt, if_neg (by omega)]
      simp
    exact absurd hstored (stored_ne hj (hys y hy))
  · rw [put, hpub, hpriv, Function.update_self]

theorem second_valid {xs ys : List (List Byte × List Byte)} {w : List Byte × List Byte} {pub : U32}
    {v : Option U32} (hw : inetPton w.1 = some pub ∨ inetPton w.1 = none)
    (hys : ∀ y ∈ ys, inetPton y.1 ≠ some pub)
    (h : ∀ junk, (storedAll junk 0 (xs ++ w :: ys)).foldl put (fun _ => none) pub = v) :
    ∃ priv, inetPton w.2 = some priv ∧ v = some priv := by
  have hall : ∀ q, v = some ((inetPton w.2).getD q) := by
    intro q
    rw [← h, foldl_put_junkAt hw hys]
  cases hpriv : inetPton w.2 with
  | none =>
    have h01 := (hall 0).symm.trans (hall 1)
    rw [hpriv] at h01
    exact absurd h01 (by decide)
  | some priv =>
    refine ⟨priv, rfl, ?_⟩
    rw [hall 0, hpriv, Option.getD_some]

theorem exists_last {α : Type*} {p : α → Prop} {ws : List α} (h : ∃ w ∈ ws, p w) :
    ∃ xs w ys, ws = xs ++ w :: ys ∧ p w ∧ ∀ y ∈ ys, ¬ p y := by
  induction ws with
  | nil => simp at h
  | cons w ws ih =>
    by_cases hws : ∃ v ∈ ws, p v
    · obtain ⟨xs, v, ys, rfl, hv, hys⟩ := ih hws
      exact ⟨w :: xs, v, ys, rfl, hv, hys⟩
    · obtain ⟨v, hv, hp⟩ := h
      rcases List.mem_cons.1 hv with rfl | hv
      · exact ⟨[], v, ws, rfl, hp, fun y hy hpy => hws ⟨y, hy, hpy⟩⟩
      · exact absurd ⟨v, hv, hp⟩ hws

/-- **The pieces decide**, if the memory makes no difference. -/
theorem decides_of_foldl_put {ws : List (List Byte × List Byte)} {pub : U32} {v : Option U32}
    (h : ∀ junk, (storedAll junk 0 ws).foldl put (fun _ => none) pub = v) : Decides ws pub v := by
  by_cases hex : ∃ w ∈ ws, inetPton w.1 = some pub
  · obtain ⟨xs, w, ys, rfl, hpub, hys⟩ :=
      exists_last (p := fun w : List Byte × List Byte => inetPton w.1 = some pub) hex
    obtain ⟨priv, hpriv, rfl⟩ := second_valid (.inl hpub) hys h
    refine ⟨xs, w, ys, rfl, hpub, hpriv, ?_⟩
    intro y hy
    refine ⟨hys y hy, fun hip => ?_⟩
    obtain ⟨as, bs, rfl⟩ := List.append_of_mem hy
    have hbs : ∀ y ∈ bs, inetPton y.1 ≠ some pub := fun y hy =>
      hys y (List.mem_append_right _ (List.mem_cons_of_mem _ hy))
    obtain ⟨priv', hpriv', heq⟩ := second_valid (.inr hip) hbs
      (by simpa only [List.append_assoc, List.cons_append] using h : ∀ junk,
        (storedAll junk 0 ((xs ++ w :: as) ++ y :: bs)).foldl put (fun _ => none) pub = some priv)
    rw [hpriv', heq]
  · have hne : ∀ w ∈ ws, inetPton w.1 ≠ some pub := fun w hw hpub => hex ⟨w, hw, hpub⟩
    -- memory that never holds `pub`
    have hv : v = none := by
      rw [← h fun _ => (pub + 1, 0)]
      apply foldl_put_storedAll_keep _ rfl
      intro w hw k _ hk
      exact absurd hk (stored_ne (by simp) (hne w hw))
    subst hv
    intro w hw
    refine ⟨hne w hw, fun hip => ?_⟩
    obtain ⟨as, bs, rfl⟩ := List.append_of_mem hw
    have hbs : ∀ y ∈ bs, inetPton y.1 ≠ some pub := fun y hy =>
      hne y (List.mem_append_right _ (List.mem_cons_of_mem _ hy))
    obtain ⟨priv, -, hnone⟩ := second_valid (.inr hip) hbs h
    cases hnone

/-! ### The file -/

theorem holdsExactly_iff (junk : ℕ → U32 × U32) :
    HoldsExactly (natInboundLoadFromFile junk (newPool addr range hz) file) (mappings file) ↔
      ∀ pub, (storedAll junk 0 (wordPairs file)).foldl put (fun _ => none) pub =
        lastMapping (mappings file) pub := by
  unfold HoldsExactly natInboundLoadFromFile
  rw [privateOf_natInboundLoad]
  rfl

/-- **The static mappings are those of the file**, whatever the memory holds, exactly if the pieces that are
read decide each address as the lines do; and so they do if each line is read right. -/
theorem inbound_file (addr range : U32) (hz : U64) :
    (∀ file, (∀ junk, HoldsExactly (natInboundLoadFromFile junk (newPool addr range hz) file)
        (mappings file)) ↔ ∀ pub, Decides (wordPairs file) pub (lastMapping (mappings file) pub)) ∧
      ∀ file, (∀ l ∈ file.splitOn newline, ReadsRight l) →
        ∀ junk, HoldsExactly (natInboundLoadFromFile junk (newPool addr range hz) file)
          (mappings file) := by
  refine ⟨fun file => ⟨?_, ?_⟩, ?_⟩
  · intro h pub
    exact decides_of_foldl_put fun junk => (holdsExactly_iff junk).1 (h junk) pub
  · intro h junk
    exact (holdsExactly_iff junk).2 fun pub => (h pub).foldl_put junk 0
  · intro file h junk
    refine (holdsExactly_iff junk).2 fun pub => ?_
    rw [foldl_put_file h, lastMapping_eq]

/-- `1.1.1.1 2.2.2.2` -/
def shortLine : List Byte := [49, 46, 49, 46, 49, 46, 49, 32, 50, 46, 50, 46, 50, 46, 50]

/-- The pool that `main.c` creates, before the mappings are added. -/
def mainPool : NatPool := newPool (netAddr 203 0 113 10) 5 1000000000

theorem inbound_file_shortLine :
    HoldsExactly (natInboundLoadFromFile (fun _ => (0, 0)) mainPool shortLine)
      (mappings shortLine) := by
  have hl : newline ∉ shortLine := by decide
  have hfits : Fits shortLine :=
    { short := by decide
      noNul := by decide
      words := fun _ => ⟨by decide, by decide⟩ }
  apply (inbound_file (netAddr 203 0 113 10) 5 1000000000).2
  rw [List.splitOn_eq_singleton hl]
  intro l hmem
  rw [List.mem_singleton.1 hmem]
  exact hfits.readsRight hl

/-- A comment of 78 bytes: the sign, 62 letters and a mapping. -/
def longComment : List Byte := hash :: (List.replicate 62 120 ++ shortLine)

/-- **A long comment adds a mapping**: its tail is read as a line. -/
theorem longComment_adds :
    mappings longComment = [] ∧
      ∀ junk, privateOf (natInboundLoadFromFile junk mainPool longComment)
          (netAddr 1 1 1 1) = some (netAddr 2 2 2 2) ∧
        ¬HoldsExactly (natInboundLoadFromFile junk mainPool longComment)
          (mappings longComment) := by
  have hpairs : wordPairs longComment = [(shortLine.take 7, shortLine.drop 8)] := by decide
  have hpub : inetPton (shortLine.take 7) = some (netAddr 1 1 1 1) := by decide
  have hpriv : inetPton (shortLine.drop 8) = some (netAddr 2 2 2 2) := by decide
  have hnone : mappings longComment = [] := by decide
  have hadds : ∀ junk, privateOf (natInboundLoadFromFile junk mainPool longComment)
      (netAddr 1 1 1 1) = some (netAddr 2 2 2 2) := by
    intro junk
    rw [natInboundLoadFromFile, privateOf_natInboundLoad]
    change (storedAll junk 0 (wordPairs longComment)).foldl put _ _ = _
    rw [hpairs]
    simp [storedAll, stored, put, hpub, hpriv]
  refine ⟨hnone, fun junk => ⟨hadds junk, fun h => ?_⟩⟩
  have hpub := h (netAddr 1 1 1 1)
  rw [hadds, hnone] at hpub
  cases hpub

end DpdkBeginners.Pool
