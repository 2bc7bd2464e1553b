import Mathlib.Data.Nat.Notation
import Mathlib.Logic.Function.Basic
import Mathlib.Tactic.Common

/-!
# Byte buffers

A buffer is a total function from offsets to bytes: what lies past the data of a packet is whatever
an earlier packet left there.  Multi-byte fields are loaded and stored as a little-endian host does
(`load16`, `load32`, `store16`, `store32`), so a field in network order is read as its byte swap
(`bswap16`, `bswap32`).
-/

namespace DpdkBeginners.Rte

open Function (update update_self update_of_ne)

abbrev U8 := BitVec 8
abbrev U16 := BitVec 16
abbrev U32 := BitVec 32
abbrev U64 := BitVec 64

abbrev Bytes := ℕ → U8

/-! ### Loads and stores -/

def load16 (d : Bytes) (o : ℕ) : U16 := d (o + 1) ++ d o

def load32 (d : Bytes) (o : ℕ) : U32 := load16 d (o + 2) ++ load16 d o

def store16 (d : Bytes) (o : ℕ) (v : U16) : Bytes :=
  update (update d o (v.extractLsb' 0 8)) (o + 1) (v.extractLsb' 8 8)

def store32 (d : Bytes) (o : ℕ) (v : U32) : Bytes :=
  store16 (store16 d o (v.extractLsb' 0 16)) (o + 2) (v.extractLsb' 16 16)

section LoadStore

variable {d : Bytes} {a b : ℕ}

theorem store16_apply (v : U16) (h : a < b ∨ b + 2 ≤ a) : store16 d b v a = d a := by
  unfold store16
  rw [update_of_ne (by omega), update_of_ne (by omega)]

theorem store32_apply (v : U32) (h : a < b ∨ b + 4 ≤ a) : store32 d b v a = d a := by
  unfold store32
  rw [store16_apply _ (by omega), store16_apply _ (by omega)]

theorem load16_congr {d' : Bytes} (h : ∀ i, a ≤ i → i < a + 2 → d i = d' i) :
    load16 d a = load16 d' a := by
  unfold load16
  rw [h a (by omega) (by omega), h (a + 1) (by omega) (by omega)]

theorem load32_congr {d' : Bytes} (h : ∀ i, a ≤ i → i < a + 4 → d i = d' i) :
    load32 d a = load32 d' a := by
  unfold load32
  rw [load16_congr fun i h₁ h₂ => h i (by omega) (by omega),
    load16_congr fun i h₁ h₂ => h i (by omega) (by omega)]

theorem load16_store16 (v : U16) : load16 (store16 d a v) a = v := by
  unfold load16 store16
  rw [update_self, update_of_ne (by omega), update_self]
  exact BitVec.extractLsb'_append_extractLsb'

theorem load16_store16_of_disjoint (v : U16) (h : a + 2 ≤ b ∨ b + 2 ≤ a) :
    load16 (store16 d b v) a = load16 d a :=
  load16_congr fun _ _ _ => store16_apply v (by omega)

theorem load16_store32_of_disjoint (v : U32) (h : a + 2 ≤ b ∨ b + 4 ≤ a) :
    load16 (store32 d b v) a = load16 d a :=
  load16_congr fun _ _ _ => store32_apply v (by omega)

theorem load32_store16_of_disjoint (v : U16) (h : a + 4 ≤ b ∨ b + 2 ≤ a) :
    load32 (store16 d b v) a = load32 d a :=
  load32_congr fun _ _ _ => store16_apply v (by omega)

theorem load32_store32_of_disjoint (v : U32) (h : a + 4 ≤ b ∨ b + 4 ≤ a) :
    load32 (store32 d b v) a = load32 d a :=
  load32_congr fun _ _ _ => store32_apply v (by omega)

theorem load32_store32 (v : U32) : load32 (store32 d a v) a = v := by
  unfold load32 store32
  rw [load16_store16, load16_store16_of_disjoint _ (by omega), load16_store16]
  exact BitVec.extractLsb'_append_extractLsb'

/-! A store does not depend on what it overwrites. -/

theorem update_congr {d' : Bytes} {v : U8} (h : a ≠ b → d a = d' a) : update d b v a = update d' b v a := by
  by_cases hab : a = b
  · rw [hab, update_self, update_self]
  · rw [update_of_ne hab, update_of_ne hab, h hab]

theorem store16_congr {d' : Bytes} {v : U16} (h : a < b ∨ b + 2 ≤ a → d a = d' a) :
    store16 d b v a = store16 d' b v a :=
  update_congr fun _ => update_congr fun _ => h (by omega)

theorem store32_congr {d' : Bytes} {v : U32} (h : a < b ∨ b + 4 ≤ a → d a = d' a) :
    store32 d b v a = store32 d' b v a :=
  store16_congr fun _ => store16_congr fun _ => h (by omega)

theorem store16_load16 {d' : Bytes} (h : a < b ∨ b + 2 ≤ a → d a = d' a) :
    store16 d b (load16 d' b) a = d' a := by
  unfold store16 load16
  rw [BitVec.extractLsb'_append_eq_right, BitVec.extractLsb'_append_eq_left]
  by_cases h₁ : a = b + 1
  · rw [h₁, update_self]
  · rw [update_of_ne h₁]
    by_cases h₀ : a = b
    · rw [h₀, update_self]
    · rw [update_of_ne h₀, h (by omega)]

end LoadStore

/-! ### A buffer from an offset on -/

/-- The bytes from the offset `k` on. -/
def shift (k : ℕ) (d : Bytes) : Bytes := fun i => d (k + i)

section Shift

variable {d : Bytes} {k o : ℕ}

theorem shift_update (v : U8) : shift k (update d (k + o) v) = update (shift k d) o v := by
  funext i
  unfold shift
  by_cases hi : i = o
  · rw [hi, update_self, update_self]
  · rw [update_of_ne (by omega), update_of_ne hi]

theorem shift_store16 (v : U16) : shift k (store16 d (k + o) v) = store16 (shift k d) o v := by
  rw [store16, Nat.add_assoc, shift_update, shift_update, store16]

theorem shift_store32 (v : U32) : shift k (store32 d (k + o) v) = store32 (shift k d) o v := by
  rw [store32, Nat.add_assoc, shift_store16, shift_store16, store32]

theorem load16_shift : load16 (shift k d) o = load16 d (k + o) := by
  unfold load16 shift
  rw [Nat.add_assoc]

end Shift

/-! ### Byte order -/

/-- Swap the two bytes. -/
def bswap16 (v : U16) : U16 := v.extractLsb' 0 8 ++ v.extractLsb' 8 8

/-- Swap the four bytes. -/
def bswap32 (v : U32) : U32 := bswap16 (v.extractLsb' 0 16) ++ bswap16 (v.extractLsb' 16 16)

/-- `rte_cpu_to_be_16` and `rte_be_to_cpu_16`, on a little-endian host. -/
abbrev rteCpuToBe16 : U16 → U16 := bswap16

abbrev rteBeToCpu16 : U16 → U16 := bswap16

/-- `rte_cpu_to_be_32` and `rte_be_to_cpu_32`, on a little-endian host. -/
abbrev rteCpuToBe32 : U32 → U32 := bswap32

abbrev rteBeToCpu32 : U32 → U32 := bswap32

theorem bswap16_bswap16 (v : U16) : bswap16 (bswap16 v) = v := by
  unfold bswap16
  rw [BitVec.extractLsb'_append_eq_left, BitVec.extractLsb'_append_eq_right]
  exact BitVec.extractLsb'_append_extractLsb'

theorem bswap32_bswap32 (v : U32) : bswap32 (bswap32 v) = v := by
  unfold bswap32
  rw [BitVec.extractLsb'_append_eq_left, BitVec.extractLsb'_append_eq_right, bswap16_bswap16,
    bswap16_bswap16]
  exact BitVec.extractLsb'_append_extractLsb'

theorem bswap16_injective : Function.Injective bswap16 :=
  Function.LeftInverse.injective bswap16_bswap16

theorem bswap32_injective : Function.Injective bswap32 :=
  Function.LeftInverse.injective bswap32_bswap32

end DpdkBeginners.Rte
