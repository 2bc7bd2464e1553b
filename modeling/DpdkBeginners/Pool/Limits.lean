import DpdkBeginners.Pool.Rep

/-!
# The arithmetic of a pool near its limits

`nat_pool_create` adds the index of a slot to the start address and doubles the range in 32 bits, and the
loader rejects no range but 0.  The sum wraps for a pool that would go on behind 255.255.255.255, and the
product for a range from `2 ^ 31` on.  What stops some of these pools is `rte_hash_create`, which refuses the doubled
range if it is below 8 or above `2 ^ 30`; a range whose double wraps to a number in between gets a table that is too
small (`pool_limits`).
-/

namespace DpdkBeginners.Pool

open DpdkBeginners.Rte

variable {s : Setup} {p : NatPool} {addr range : U32} {hz : U64}

/-- `nat_load_from_file`, when the file has been read: `range` is what `%u` has stored, or 0.  `none` is `NULL`, after
which `main` ends the program, or `nat_pool_create` has ended it. -/
def natLoadFromFile (s : Setup) (addr range : U32) (hz : U64) : Option NatPool :=
  if range = 0 then none else natPoolCreate s addr range hz

/-- The pool has the `range` addresses from `addr` on, one after the other and none twice, and room for all of them in
its table. -/
structure WellSized (addr range : U32) (p : NatPool) : Prop where
  size : p.poolSize = range
  consecutive : ∀ i < range.toNat,
    (rteBeToCpu32 (p.entries i).publicIp).toNat = (rteBeToCpu32 addr).toNat + i
  distinct : ∀ i < range.toNat, ∀ j < range.toNat,
    (p.entries i).publicIp = (p.entries j).publicIp → i = j
  capacity : range.toNat ≤ (outParamsEntries range).toNat

/-! ### The two computations -/

theorem toNat_slotAddr (addr : U32) {i : ℕ} (hi : i < 2 ^ 32) :
    (rteBeToCpu32 (slotAddr addr i)).toNat = ((rteBeToCpu32 addr).toNat + i) % 2 ^ 32 := by
  rw [slotAddr, show rteBeToCpu32 (rteCpuToBe32 _) = _ from bswap32_bswap32 _, BitVec.toNat_add,
    BitVec.toNat_ofNat, Nat.mod_eq_of_lt hi]

/-- The addresses do not wrap if and only if the last one does not. -/
theorem consecutive_iff (addr range : U32) :
    (∀ i < range.toNat, (rteBeToCpu32 (slotAddr addr i)).toNat = (rteBeToCpu32 addr).toNat + i) ↔
      (rteBeToCpu32 addr).toNat + range.toNat ≤ 2 ^ 32 := by
  have hrange := range.isLt
  have hstart := (rteBeToCpu32 addr).isLt
  constructor
  · intro h
    by_cases hzero : range.toNat = 0
    · omega
    · have hlast := h (range.toNat - 1) (by omega)
      rw [toNat_slotAddr addr (by omega)] at hlast
      omega
  · intro h i hi
    rw [toNat_slotAddr addr (by omega), Nat.mod_eq_of_lt (by omega)]

theorem toNat_outParamsEntries (range : U32) : (outParamsEntries range).toNat = range.toNat * 2 % 2 ^ 32 := by
  rw [outParamsEntries, BitVec.toNat_mul]
  rfl

/-- Doubling a range does not make it smaller if and only if it does not wrap. -/
theorem capacity_iff (range : U32) :
    range.toNat ≤ (outParamsEntries range).toNat ↔ range.toNat < 2 ^ 31 := by
  have hrange := range.isLt
  rw [toNat_outParamsEntries]
  omega

theorem wellSized_newPool_iff (addr range : U32) (hz : U64) :
    WellSized addr range (newPool addr range hz) ↔
      (rteBeToCpu32 addr).toNat + range.toNat ≤ 2 ^ 32 ∧ range.toNat < 2 ^ 31 := by
  constructor
  · rintro ⟨-, hcons, -, hcap⟩
    exact ⟨(consecutive_iff addr range).1 hcons, (capacity_iff range).1 hcap⟩
  · rintro ⟨hend, hsmall⟩
    refine ⟨rfl, (consecutive_iff addr range).2 hend, ?_, (capacity_iff range).2 hsmall⟩
    intro i hi j hj heq
    have hlt := range.isLt
    exact slotAddr_injective (by omega) (by omega) heq

/-! ### When there is a pool -/

/-- The doubled range is one that `rte_hash_create` does not refuse. -/
def Accepted (range : U32) : Prop :=
  rteHashBucketEntries ≤ outParamsEntries range ∧ outParamsEntries range ≤ rteHashEntriesMax

theorem accepted_iff (range : U32) :
    Accepted range ↔ 4 ≤ range.toNat ∧ range.toNat ≤ 2 ^ 29 ∨
      2 ^ 31 + 4 ≤ range.toNat ∧ range.toNat ≤ 2 ^ 31 + 2 ^ 29 := by
  have hrange := range.isLt
  have hmin : rteHashBucketEntries.toNat = 8 := rfl
  have hmax : rteHashEntriesMax.toNat = 2 ^ 30 := rfl
  rw [Accepted, BitVec.le_def, BitVec.le_def, toNat_outParamsEntries, hmin, hmax]
  omega

theorem eq_of_natLoadFromFile (hs : s.Documented) (h : natLoadFromFile s addr range hz = some p) :
    p = newPool addr range hz ∧ Accepted range := by
  unfold natLoadFromFile natPoolCreate at h
  split_ifs at h with hzero hmalloc hcalloc hout hin
  refine ⟨(Option.some.inj h).symm, hs "nat_outbound_map" _ ?_⟩
  simpa using hout

/-- A machine with memory for every table. -/
def plenty : Setup where
  malloc := true
  calloc := true
  rteHashCreate _ entries := rteHashBucketEntries ≤ entries && entries ≤ rteHashEntriesMax

theorem documented_plenty : plenty.Documented := by
  intro name entries h
  simpa [plenty] using h

theorem natLoadFromFile_plenty (h : Accepted range) :
    natLoadFromFile plenty addr range hz = some (newPool addr range hz) := by
  have hzero : range ≠ 0 := by
    rintro rfl
    exact absurd h.1 (by decide)
  have hout : plenty.rteHashCreate "nat_outbound_map" (outParamsEntries range) = true := by
    simpa [plenty, Accepted] using h
  have hin : plenty.rteHashCreate "nat_inbound_map" maxInboundEntries = true := by decide
  rw [natLoadFromFile, if_neg hzero, natPoolCreate, hout, hin]
  rfl

/-! ### The limits -/

/-- **The limits of a pool.**  Every pool that the loader can create for a start address and a range is well sized if
and only if the pool of a range from 4 to `2 ^ 29` ends at 255.255.255.255 or before, and the range is not one from
`2 ^ 31 + 4` to `2 ^ 31 + 2 ^ 29`, whose double wraps to a number of entries that is accepted.  For every other range
the program ends. -/
theorem pool_limits (addr range : U32) (hz : U64) :
    (∀ s : Setup, s.Documented → ∀ p, natLoadFromFile s addr range hz = some p → WellSized addr range p) ↔
      (4 ≤ range.toNat ∧ range.toNat ≤ 2 ^ 29 → (rteBeToCpu32 addr).toNat + range.toNat ≤ 2 ^ 32) ∧
        ¬ (2 ^ 31 + 4 ≤ range.toNat ∧ range.toNat ≤ 2 ^ 31 + 2 ^ 29) := by
  constructor
  · intro h
    have hwell : Accepted range →
        (rteBeToCpu32 addr).toNat + range.toNat ≤ 2 ^ 32 ∧ range.toNat < 2 ^ 31 := fun haccepted =>
      (wellSized_newPool_iff addr range hz).1 (h plenty documented_plenty _ (natLoadFromFile_plenty haccepted))
    rw [accepted_iff] at hwell
    refine ⟨fun hsmall => (hwell (.inl hsmall)).1, fun hlarge => ?_⟩
    have hlt := (hwell (.inr hlarge)).2
    omega
  · rintro ⟨hsmall, hlarge⟩ s hs p hp
    obtain ⟨rfl, haccepted⟩ := eq_of_natLoadFromFile hs hp
    rw [accepted_iff] at haccepted
    rw [wellSized_newPool_iff]
    rcases haccepted with hrange | hrange
    · exact ⟨hsmall hrange, by omega⟩
    · exact absurd hrange hlarge

/-- **Pools that are not well sized**: one that starts at the last address there is and goes on at 0.0.0.0, and one of
more than `2 ^ 31` addresses with a table of 8 entries. -/
theorem pool_wraps :
    plenty.Documented ∧
    (natLoadFromFile plenty (netAddr 255 255 255 255) 4 1000000000 =
        some (newPool (netAddr 255 255 255 255) 4 1000000000) ∧
      ¬ WellSized (netAddr 255 255 255 255) 4 (newPool (netAddr 255 255 255 255) 4 1000000000)) ∧
    natLoadFromFile plenty mainStart 2147483652 1000000000 = some (newPool mainStart 2147483652 1000000000) ∧
      ¬ WellSized mainStart 2147483652 (newPool mainStart 2147483652 1000000000) := by
  refine ⟨documented_plenty, ⟨natLoadFromFile_plenty ((accepted_iff _).2 (by decide)), fun h => ?_⟩,
    natLoadFromFile_plenty ((accepted_iff _).2 (by decide)), fun h => ?_⟩
  · exact absurd (h.consecutive 1 (by decide)) (by decide)
  · exact absurd h.capacity (by decide)

theorem pool_limits_txtStart : ∀ s : Setup, s.Documented → ∀ p,
    natLoadFromFile s txtStart 5 1000000000 = some p → WellSized txtStart 5 p :=
  (pool_limits txtStart 5 1000000000).2 ⟨fun _ => by decide, by decide⟩

end DpdkBeginners.Pool
