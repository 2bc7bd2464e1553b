import DpdkBeginners.Lib.Prog
import DpdkBeginners.Rte.Cksum

/-!
# Loads, stores and checksums as programs

`Rte.Bytes` and `Rte.Env` say what a load returns, what a store leaves behind and what a checksum is.  Here they
are programs, so that it can be said which bytes of a buffer they access.

`Below n p d` says that the program `p`, run on the buffer `d`, accesses only the first `n` bytes.
-/

namespace DpdkBeginners.Rte

open DpdkBeginners.Lib

variable {d : Bytes} {o n k ip l4 : ℕ}

abbrev ByteProg := Prog U8

abbrev Below {α : Type} (n : ℕ) (p : ByteProg α) (d : Bytes) : Prop := p.Within (· < n) d

/-! ### Loads and stores -/

def loadByte (o : ℕ) : ByteProg U8 := .load o pure

def loadWord (o : ℕ) : ByteProg U16 := do
  let lo ← loadByte o
  let hi ← loadByte (o + 1)
  pure (hi ++ lo)

def loadLong (o : ℕ) : ByteProg U32 := do
  let lo ← loadWord o
  let hi ← loadWord (o + 2)
  pure (hi ++ lo)

/-- The bytes of an array, one after the other. -/
def loadBytes (o : ℕ) : ℕ → ByteProg (List U8)
  | 0 => pure []
  | k + 1 => do
    let b ← loadByte o
    let bs ← loadBytes (o + 1) k
    pure (b :: bs)

def storeWord (o : ℕ) (v : U16) : ByteProg Unit :=
  .store o (v.extractLsb' 0 8) (.store (o + 1) (v.extractLsb' 8 8) (pure ()))

def storeLong (o : ℕ) (v : U32) : ByteProg Unit := do
  storeWord o (v.extractLsb' 0 16)
  storeWord (o + 2) (v.extractLsb' 16 16)

@[simp] theorem run_loadByte : (loadByte o).run d = (d o, d) := by simp [loadByte]

@[simp] theorem run_loadWord : (loadWord o).run d = (load16 d o, d) := by simp [loadWord, load16]

@[simp] theorem run_loadLong : (loadLong o).run d = (load32 d o, d) := by simp [loadLong, load32]

@[simp] theorem run_loadBytes : (loadBytes o k).run d = ((List.range k).map fun i => d (o + i), d) := by
  induction k generalizing o with
  | zero => rfl
  | succ k ih =>
    have hnext : ∀ i, d (o + 1 + i) = d (o + (i + 1)) := fun i => congrArg d (by omega)
    simp only [loadBytes, Prog.run_bind, run_loadByte, ih, Prog.run_pure, List.range_succ_eq_map,
      List.map_cons, List.map_map, Nat.add_zero, hnext]
    rfl

@[simp] theorem run_storeWord (v : U16) : (storeWord o v).run d = ((), store16 d o v) := by
  simp [storeWord, store16]

@[simp] theorem run_storeLong (v : U32) : (storeLong o v).run d = ((), store32 d o v) := by
  simp [storeLong, store32]

@[simp] theorem below_loadByte : Below n (loadByte o) d ↔ o + 1 ≤ n := by
  simp only [loadByte, Prog.within_load, Prog.within_pure, and_true]
  omega

@[simp] theorem below_loadWord : Below n (loadWord o) d ↔ o + 2 ≤ n := by
  simp only [loadWord, Prog.within_bind, below_loadByte, run_loadByte, Prog.within_pure, and_true]
  omega

@[simp] theorem below_loadLong : Below n (loadLong o) d ↔ o + 4 ≤ n := by
  simp only [loadLong, Prog.within_bind, below_loadWord, run_loadWord, Prog.within_pure, and_true]
  omega

@[simp] theorem below_loadBytes : Below n (loadBytes o k) d ↔ k = 0 ∨ o + k ≤ n := by
  induction k generalizing o with
  | zero => simp [loadBytes]
  | succ k ih =>
    simp only [loadBytes, Prog.within_bind, below_loadByte, run_loadByte, ih, Prog.within_pure, and_true]
    omega

@[simp] theorem below_storeWord (v : U16) : Below n (storeWord o v) d ↔ o + 2 ≤ n := by
  simp only [storeWord, Prog.within_store, Prog.within_pure, and_true]
  omega

@[simp] theorem below_storeLong (v : U32) : Below n (storeLong o v) d ↔ o + 4 ≤ n := by
  simp only [storeLong, Prog.within_bind, below_storeWord]
  omega

/-! ### Checksums -/

/-- `rawSum` -/
def rawSumProg (o : ℕ) : ℕ → ByteProg ℕ
  | 0 => pure 0
  | 1 => do
    let b ← loadByte o
    pure b.toNat
  | n + 2 => do
    let w ← loadWord o
    let rest ← rawSumProg (o + 2) n
    pure (w.toNat + rest)

@[simp] theorem run_rawSumProg : (rawSumProg o k).run d = (rawSum d o k, d) := by
  fun_induction rawSumProg o k with
  | case1 => rfl
  | case2 => rfl
  | case3 o k ih => simp [ih, rawSum]

@[simp] theorem below_rawSumProg : Below n (rawSumProg o k) d ↔ k = 0 ∨ o + k ≤ n := by
  fun_induction rawSumProg o k with
  | case1 => simp
  | case2 => simp
  | case3 o k ih =>
    simp only [Prog.within_bind, below_loadWord, run_loadWord, ih, Prog.within_pure, and_true]
    omega

/-- `rte_ipv4_cksum` -/
def ipv4CksumProg (ip : ℕ) : ByteProg U16 := do
  let versionIhl ← loadByte ip
  let sum ← rawSumProg ip (4 * (versionIhl.toNat % 16))
  pure (~~~ foldSum sum)

/-- `rte_ipv4_udptcp_cksum` -/
def ipv4UdptcpCksumProg (ip l4 : ℕ) : ByteProg U16 := do
  let versionIhl ← loadByte ip
  let total ← loadWord (ip + 2)
  let hdrLen := 4 * (versionIhl.toNat % 16)
  let l3Len := (rteBeToCpu16 total).toNat
  if l3Len < hdrLen then pure 0xffff
  else do
    let sum ← rawSumProg l4 (l3Len - hdrLen)
    let addrs ← rawSumProg (ip + 12) 8
    let proto ← loadByte (ip + 9)
    let pseudo := addrs + (rteCpuToBe16 (proto.setWidth 16)).toNat +
      (rteCpuToBe16 (BitVec.ofNat 16 (l3Len - hdrLen))).toNat
    let ck := ~~~ foldSum (sum + pseudo)
    pure (if ck = 0 ∧ proto = 17 then 0xffff else ck)

theorem run_ipv4CksumProg (timerHz : U64) :
    (ipv4CksumProg ip).run d = ((rteDocumented timerHz).ipv4Cksum d ip, d) := by
  simp [ipv4CksumProg, rteDocumented]

theorem run_ipv4UdptcpCksumProg (timerHz : U64) :
    (ipv4UdptcpCksumProg ip l4).run d = ((rteDocumented timerHz).ipv4UdptcpCksum d ip l4, d) := by
  simp only [ipv4UdptcpCksumProg, rteDocumented, Prog.run_bind, run_loadByte, run_loadWord, Prog.run_ite,
    Prog.run_pure, run_rawSumProg]
  split_ifs <;> rfl

/-- **The header checksum** reads the header. -/
@[simp] theorem below_ipv4CksumProg :
    Below n (ipv4CksumProg ip) d ↔ ip + 1 ≤ n ∧ ip + hdrLen d ip ≤ n := by
  simp only [ipv4CksumProg, hdrLen, Prog.within_bind, below_loadByte, run_loadByte, below_rawSumProg,
    Prog.within_pure, and_true]
  omega

/-- **The TCP or UDP checksum** reads the fixed part of the header and the message. -/
theorem below_ipv4UdptcpCksumProg :
    Below n (ipv4UdptcpCksumProg ip l4) d ↔
      ip + 4 ≤ n ∧
        (hdrLen d ip ≤ totalLength d ip → ip + 20 ≤ n ∧ (l4Len d ip = 0 ∨ l4 + l4Len d ip ≤ n)) := by
  simp only [ipv4UdptcpCksumProg, Prog.within_bind, run_loadByte, run_loadWord, Prog.within_ite,
    Prog.within_pure, run_rawSumProg, below_loadByte, below_loadWord, below_rawSumProg, and_true, l4Len,
    totalLength, hdrLen]
  split_ifs with h
  · rw [and_iff_left fun hle => absurd h (Nat.not_lt.2 hle), and_true]
    omega
  · rw [imp_iff_right (Nat.not_lt.1 h), false_or]
    omega

end DpdkBeginners.Rte
