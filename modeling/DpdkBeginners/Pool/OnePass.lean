import DpdkBeginners.Pool.Slots
import Mathlib.Data.List.Find

/-!
# The one-pass scan of `nat_project/version4`

`find_free_slot` of `version4` releases the idle slots and remembers the first free one in a single loop, over
an array that it changes on the way.  It does what `version5` does in two loops, the expiry callback and a
scan (`onePass_eq`): a slot that has been passed is not written again, so the first free slot of the prefix
that has been passed is the first one there at the end.
-/

namespace DpdkBeginners.Pool

open DpdkBeginners.Rte

variable {p : NatPool} {now : U64} {i n : ℕ}

/-! ### The pool of `version4` -/

/-- `struct nat_pool` of `version4`. -/
structure NatPool4 where
  entries : ℕ → NatPoolEntry
  poolStartIp : U32
  poolSize : U32
  idleTsc : U64
  map : RteHash U32 ℕ

/-- The cast of a slot index to `int`. -/
def intOfSlot (i : ℕ) : Int := (BitVec.ofNat 32 i).toInt

/-- The body of the loop of `find_free_slot`, on the pool and `free_slot`. -/
def scanSlot (now : U64) (t : NatPool4 × Int) (i : ℕ) : NatPool4 × Int :=
  let (pool, freeSlot) := t
  if (pool.entries i).inUse = false then (pool, if freeSlot = -1 then intOfSlot i else freeSlot)
  else if pool.idleTsc ≤ now - (pool.entries i).lastSeenTsc then
    ({ pool with
        map := rteHashDelKey pool.map (pool.entries i).privateIp
        entries := Function.update pool.entries i (pool.entries i).release },
      if freeSlot = -1 then intOfSlot i else freeSlot)
  else (pool, freeSlot)

/-- `find_free_slot` of `version4`, at the clock reading `now`. -/
def findFreeSlot4 (pool : NatPool4) (now : U64) : NatPool4 × Int :=
  (List.range pool.poolSize.toNat).foldl (scanSlot now) (pool, -1)

/-- What a pool of `version5` has in common with one of `version4`. -/
def toVersion4 (p : NatPool) : NatPool4 where
  entries := p.entries
  poolStartIp := p.poolStartIp
  poolSize := p.poolSize
  idleTsc := p.idleTsc
  map := p.outboundMap

theorem toVersion4_surjective : Function.Surjective toVersion4 := by
  rintro ⟨entries, poolStartIp, poolSize, idleTsc, map⟩
  exact ⟨⟨entries, poolStartIp, poolSize, idleTsc, map, rteHashEmpty, none, false⟩, rfl⟩

/-! ### The loop -/

/-- The first free slot among the first `n`, as an `int`. -/
def firstFreeBelow (p : NatPool) (n : ℕ) : Int :=
  match (List.range n).find? fun i => (p.entries i).inUse = false with
  | some i => intOfSlot i
  | none => -1

theorem firstFreeBelow_congr {q : NatPool} (h : ∀ i < n, q.entries i = p.entries i) :
    firstFreeBelow q n = firstFreeBelow p n := by
  have hfind : ((List.range n).find? fun i => (q.entries i).inUse = false) =
      (List.range n).find? fun i => (p.entries i).inUse = false :=
    List.find?_congr fun i hi => by rw [h i (List.mem_range.1 hi)]
  unfold firstFreeBelow
  rw [hfind]

/-- A pool has fewer than `2 ^ 32` slots, so the index of one is not taken for `-1`. -/
theorem intOfSlot_ne (h : i + 1 < 2 ^ 32) : intOfSlot i ≠ -1 := by
  unfold intOfSlot
  rw [BitVec.toInt_eq_toNat_cond, BitVec.toNat_ofNat, Nat.mod_eq_of_lt (by omega)]
  split_ifs <;> omega

/-- One more slot: it is the first free one if it is free and none has been found. -/
theorem firstFreeBelow_succ (hn : n + 1 < 2 ^ 32) : firstFreeBelow p (n + 1) =
    if (p.entries n).inUse = false ∧ firstFreeBelow p n = -1 then intOfSlot n
    else firstFreeBelow p n := by
  unfold firstFreeBelow
  rw [List.range_succ, List.find?_append]
  cases hfind : (List.range n).find? fun i => (p.entries i).inUse = false with
  | some i =>
    have hi : i < n := List.mem_range.1 (List.mem_of_find?_eq_some hfind)
    have hne := @intOfSlot_ne i (by omega)
    simp [hne]
  | none =>
    by_cases hfree : (p.entries n).inUse = false
    · simp [hfree]
    · simp [hfree]

/-- The expiry loop after `n` slots. -/
def expireUpTo (p : NatPool) (now : U64) (n : ℕ) : NatPool :=
  (List.range n).foldl (fun pool i => expireSlot pool now i) p

theorem expireUpTo_succ (p : NatPool) (now : U64) (n : ℕ) :
    expireUpTo p now (n + 1) = expireSlot (expireUpTo p now n) now n := by
  unfold expireUpTo
  rw [List.range_succ, List.foldl_append]
  rfl

theorem expireSlot_entries_of_ne {j : ℕ} (hj : j ≠ i) :
    (expireSlot p now i).entries j = p.entries j := by
  by_cases hidle : Idle p now i
  · rw [expireSlot_idle hidle]
    exact Function.update_of_ne hj ..
  · rw [expireSlot_not_idle hidle]

/-- **One slot of the single loop**: it is released if it is idle, and remembered if it is free by then and
none has been found. -/
theorem scanSlot_eq (p : NatPool) (now : U64) (freeSlot : Int) (i : ℕ) :
    scanSlot now (toVersion4 p, freeSlot) i = (toVersion4 (expireSlot p now i),
      if ((expireSlot p now i).entries i).inUse = false ∧ freeSlot = -1 then intOfSlot i
      else freeSlot) := by
  by_cases hfree : (p.entries i).inUse = false
  · have hidle : ¬ Idle p now i := fun h => by simpa [hfree] using h.1
    rw [expireSlot_not_idle hidle]
    simp [scanSlot, toVersion4, hfree]
  · by_cases hidle : Idle p now i
    · have hreleased : ((expireSlot p now i).entries i).inUse = false := by
        rw [expireSlot_idle hidle]
        exact congrArg NatPoolEntry.inUse (Function.update_self i _ p.entries)
      have hscan : scanSlot now (toVersion4 p, freeSlot) i =
          (toVersion4 (expireSlot p now i), if freeSlot = -1 then intOfSlot i else freeSlot) := by
        rw [expireSlot_idle hidle]
        exact (if_neg hfree).trans (if_pos hidle.2)
      rw [hscan]
      simp [hreleased]
    · have htoo : ¬ p.idleTsc ≤ now - (p.entries i).lastSeenTsc :=
        fun h => hidle ⟨by simpa using hfree, h⟩
      rw [expireSlot_not_idle hidle, if_neg (fun h => hfree h.1)]
      exact (if_neg hfree).trans (if_neg htoo)

/-- The invariant of the single loop. -/
theorem scan_inv (p : NatPool) (now : U64) (hn : n < 2 ^ 32) :
    (List.range n).foldl (scanSlot now) (toVersion4 p, -1) =
      (toVersion4 (expireUpTo p now n), firstFreeBelow (expireUpTo p now n) n) := by
  induction n with
  | zero => rfl
  | succ n ih =>
    have hkept : firstFreeBelow (expireUpTo p now (n + 1)) n = firstFreeBelow (expireUpTo p now n) n := by
      apply firstFreeBelow_congr
      intro i hi
      rw [expireUpTo_succ, expireSlot_entries_of_ne (by omega)]
    rw [List.range_succ, List.foldl_append, ih (by omega), List.foldl_cons, List.foldl_nil, scanSlot_eq,
      firstFreeBelow_succ hn, hkept, expireUpTo_succ]

/-- **One pass is two passes**: the scan of `version4` leaves the entries and the map that the expiry callback
of `version5` leaves, and returns the slot that the scan of `version5` returns then. -/
theorem onePass_eq (p : NatPool) (now : U64) :
    findFreeSlot4 (toVersion4 p) now =
      (toVersion4 (expiryTimerCb p now), findFreeSlot (expiryTimerCb p now)) := by
  have hsize : (expiryTimerCb p now).poolSize = p.poolSize :=
    (released_expiryTimerCb p now).config.poolSize
  have hscan : findFreeSlot (expiryTimerCb p now) =
      firstFreeBelow (expireUpTo p now p.poolSize.toNat) p.poolSize.toNat := by
    unfold findFreeSlot firstFreeBelow
    rw [hsize]
    rfl
  rw [hscan]
  exact scan_inv p now p.poolSize.isLt

end DpdkBeginners.Pool
