import DpdkBeginners.Pool.Defs

/-!
# What the pool does with one packet

* `rewriteAndRecalc_header`: a rewrite sets one address.
* `findFreeSlot_cases`: the slot that is found is the first free one.  A free slot from `2 ^ 31` on has
  a negative index as an `int`, so it is taken for a full pool.
* `natApplyPacket_cases`: the five ways a packet can go.  Every later proof about packets starts here.
-/

namespace DpdkBeginners.Pool

open DpdkBeginners.Rte DpdkBeginners.Lib

variable {E : Env} {p q : NatPool} {m : Mbuf} {now : U64} {i j slot : ℕ}

/-! ### Rewriting -/

/-- **`rewrite_and_recalc`** sets one address. -/
theorem rewriteAndRecalc_header (E : Env) (m : Mbuf) (ip : U32) (isSrc : Bool) :
    (rewriteAndRecalc E m ip isSrc).header =
      if isSrc then { m.header with srcAddr := ip } else { m.header with dstAddr := ip } := by
  have hset : (if isSrc then m.setSrcAddr ip else m.setDstAddr ip).header =
      if isSrc then { m.header with srcAddr := ip } else { m.header with dstAddr := ip } := by
    cases isSrc <;> simp
  rw [← hset]
  unfold rewriteAndRecalc
  -- the rest writes checksums only
  generalize (if isSrc then m.setSrcAddr ip else m.setDstAddr ip) = m₁
  dsimp only
  split_ifs <;> simp

theorem rewriteSrc_srcAddr (E : Env) (m : Mbuf) (ip : U32) :
    (rewriteAndRecalc E m ip true).srcAddr = ip :=
  congrArg Header.srcAddr (rewriteAndRecalc_header E m ip true)

theorem rewriteSrc_dstAddr (E : Env) (m : Mbuf) (ip : U32) :
    (rewriteAndRecalc E m ip true).dstAddr = m.dstAddr :=
  congrArg Header.dstAddr (rewriteAndRecalc_header E m ip true)

theorem rewriteDst_srcAddr (E : Env) (m : Mbuf) (ip : U32) :
    (rewriteAndRecalc E m ip false).srcAddr = m.srcAddr :=
  congrArg Header.srcAddr (rewriteAndRecalc_header E m ip false)

theorem rewriteDst_dstAddr (E : Env) (m : Mbuf) (ip : U32) :
    (rewriteAndRecalc E m ip false).dstAddr = ip :=
  congrArg Header.dstAddr (rewriteAndRecalc_header E m ip false)

/-! ### The free slot -/

/-- Slot `i` is the first free one, and its index fits an `int`. -/
def FirstFree (p : NatPool) (i : ℕ) : Prop :=
  i < p.poolSize.toNat ∧ i < 2 ^ 31 ∧ (p.entries i).inUse = false ∧
    ∀ j < i, (p.entries j).inUse = true

/-- Every slot whose index fits an `int` is in use. -/
def Exhausted (p : NatPool) : Prop :=
  ∀ i < p.poolSize.toNat, i < 2 ^ 31 → (p.entries i).inUse = true

theorem FirstFree.unique (hi : FirstFree p i) (hj : FirstFree p j) : i = j := by
  obtain ⟨-, -, hfi, hui⟩ := hi
  obtain ⟨-, -, hfj, huj⟩ := hj
  rcases Nat.lt_trichotomy i j with h | h | h
  · have := huj i h
    simp [hfi] at this
  · exact h
  · have := hui j h
    simp [hfj] at this

theorem FirstFree.not_exhausted (hi : FirstFree p i) : ¬ Exhausted p := by
  intro h
  have := h i hi.1 hi.2.1
  simp [hi.2.2.1] at this

/-- **`find_free_slot`** finds the first free slot, if it is one below `2 ^ 31`. -/
theorem findFreeSlot_cases (p : NatPool) :
    (∃ i, FirstFree p i ∧ findFreeSlot p = (i : Int)) ∨ (Exhausted p ∧ findFreeSlot p < 0) := by
  unfold findFreeSlot
  cases hfind : (List.range p.poolSize.toNat).find? fun i => (p.entries i).inUse = false with
  | none =>
    right
    refine ⟨?_, by decide⟩
    intro i hi _
    have hused := List.find?_range_eq_none.1 hfind i hi
    simpa using hused
  | some i =>
    rw [List.find?_range_eq_some] at hfind
    obtain ⟨hfree, hmem, hbefore⟩ := hfind
    have hi : i < p.poolSize.toNat := List.mem_range.1 hmem
    have hi32 : i < 2 ^ 32 := lt_trans hi p.poolSize.isLt
    have hnat : (BitVec.ofNat 32 i).toNat = i := by
      rw [BitVec.toNat_ofNat, Nat.mod_eq_of_lt hi32]
    have hused : ∀ j < i, (p.entries j).inUse = true := fun j hj => by simpa using hbefore j hj
    by_cases h31 : i < 2 ^ 31
    · left
      refine ⟨i, ⟨hi, h31, by simpa using hfree, hused⟩, ?_⟩
      simp only [BitVec.toInt_eq_toNat_cond, hnat]
      rw [if_pos (by omega)]
    · right
      refine ⟨fun j hj hj31 => hused j (by omega), ?_⟩
      simp only [BitVec.toInt_eq_toNat_cond, hnat]
      rw [if_neg (by omega)]
      omega

theorem firstFree_or_exhausted (p : NatPool) : (∃ i, FirstFree p i) ∨ Exhausted p := by
  rcases findFreeSlot_cases p with ⟨i, hi, -⟩ | ⟨h, -⟩
  · exact Or.inl ⟨i, hi⟩
  · exact Or.inr h

theorem FirstFree.findFreeSlot (h : FirstFree p i) : findFreeSlot p = (i : Int) := by
  rcases findFreeSlot_cases p with ⟨j, hj, hslot⟩ | ⟨hex, -⟩
  · rw [hslot, h.unique hj]
  · exact absurd hex h.not_exhausted

theorem Exhausted.findFreeSlot (h : Exhausted p) : findFreeSlot p < 0 := by
  rcases findFreeSlot_cases p with ⟨j, hj, -⟩ | ⟨-, hneg⟩
  · exact absurd h hj.not_exhausted
  · exact hneg

/-! ### The pool after a packet -/

/-- The host that holds `slot` has sent a packet. -/
def touched (p : NatPool) (slot : ℕ) (now : U64) : NatPool :=
  p.setEntry slot { p.entries slot with lastSeenTsc := now }

/-- `slot` is given to the host `src`. -/
def assigned (p : NatPool) (slot : ℕ) (src : U32) (now : U64) : NatPool :=
  { p.setEntry slot { p.entries slot with privateIp := src, inUse := true, lastSeenTsc := now } with
    outboundMap := Function.update p.outboundMap src (some slot) }

theorem natApplyPacket_notIpv4 (hip : ¬ m.IsIpv4) : natApplyPacket E p now m = (p, some m) := if_pos hip

theorem natApplyPacket_static {entry : NatInboundEntry} (hip : m.IsIpv4)
    (hin : p.inboundMap m.dstAddr = some entry) :
    natApplyPacket E p now m = (p, some (rewriteAndRecalc E m entry.privateIp false)) := by
  simp [natApplyPacket, hip, hin]

theorem natApplyPacket_known (hip : m.IsIpv4) (hin : p.inboundMap m.dstAddr = none)
    (hs : p.outboundMap m.srcAddr = some slot) :
    natApplyPacket E p now m =
      (touched p slot now, some (rewriteAndRecalc E m (p.entries slot).publicIp true)) := by
  simp [natApplyPacket, hip, hin, hs, touched, NatPool.setEntry]

theorem natApplyPacket_assigned (hip : m.IsIpv4) (hin : p.inboundMap m.dstAddr = none)
    (hs : p.outboundMap m.srcAddr = none) (hfree : FirstFree p slot) :
    natApplyPacket E p now m = (assigned p slot m.srcAddr now,
      some (rewriteAndRecalc E m (p.entries slot).publicIp true)) := by
  have hneg : ¬ (slot : Int) < 0 := by omega
  simp [natApplyPacket, hip, hin, hs, hfree.findFreeSlot, hneg, assigned, NatPool.setEntry]

theorem natApplyPacket_dropped (hip : m.IsIpv4) (hin : p.inboundMap m.dstAddr = none)
    (hs : p.outboundMap m.srcAddr = none) (hex : Exhausted p) :
    natApplyPacket E p now m = (p, none) := by
  simp [natApplyPacket, hip, hin, hs, hex.findFreeSlot]

/-- The ways a packet can go: the pool and the buffer after it. -/
inductive Applied (E : Env) (p : NatPool) (now : U64) (m : Mbuf) : NatPool × Option Mbuf → Prop
  | notIpv4 : ¬ m.IsIpv4 → Applied E p now m (p, some m)
  | static {entry : NatInboundEntry} : m.IsIpv4 → p.inboundMap m.dstAddr = some entry →
      Applied E p now m (p, some (rewriteAndRecalc E m entry.privateIp false))
  | known {slot : ℕ} : m.IsIpv4 → p.inboundMap m.dstAddr = none → p.outboundMap m.srcAddr = some slot →
      Applied E p now m
        (touched p slot now, some (rewriteAndRecalc E m (p.entries slot).publicIp true))
  | assigned {slot : ℕ} : m.IsIpv4 → p.inboundMap m.dstAddr = none → p.outboundMap m.srcAddr = none →
      FirstFree p slot → Applied E p now m (assigned p slot m.srcAddr now,
        some (rewriteAndRecalc E m (p.entries slot).publicIp true))
  | dropped : m.IsIpv4 → p.inboundMap m.dstAddr = none → p.outboundMap m.srcAddr = none →
      Exhausted p → Applied E p now m (p, none)

/-- **The ways a packet can go.** -/
theorem natApplyPacket_cases (E : Env) (p : NatPool) (now : U64) (m : Mbuf) :
    Applied E p now m (natApplyPacket E p now m) := by
  by_cases hip : m.IsIpv4
  · cases hin : p.inboundMap m.dstAddr with
    | some entry =>
      rw [natApplyPacket_static hip hin]
      exact .static hip hin
    | none =>
      cases hs : p.outboundMap m.srcAddr with
      | some slot =>
        rw [natApplyPacket_known hip hin hs]
        exact .known hip hin hs
      | none =>
        rcases firstFree_or_exhausted p with ⟨slot, hfree⟩ | hex
        · rw [natApplyPacket_assigned hip hin hs hfree]
          exact .assigned hip hin hs hfree
        · rw [natApplyPacket_dropped hip hin hs hex]
          exact .dropped hip hin hs hex
  · rw [natApplyPacket_notIpv4 hip]
    exact .notIpv4 hip

/-! ### Packets between two addresses -/

/-- A UDP packet from `src` to `dst`. -/
def frame (src dst : U32) : Mbuf := l4Frame ipprotoUdp src dst (rteCpuToBe16 1000) (rteCpuToBe16 53)

theorem frame_header (src dst : U32) : (frame src dst).header =
    ⟨rteCpuToBe16 rteEtherTypeIpv4, ipprotoUdp, src, dst, rteCpuToBe16 1000, rteCpuToBe16 53⟩ :=
  l4Frame_header ..

theorem frame_isIpv4 (src dst : U32) : (frame src dst).IsIpv4 :=
  congrArg Header.etherType (frame_header src dst)

theorem frame_srcAddr (src dst : U32) : (frame src dst).srcAddr = src :=
  congrArg Header.srcAddr (frame_header src dst)

theorem frame_dstAddr (src dst : U32) : (frame src dst).dstAddr = dst :=
  congrArg Header.dstAddr (frame_header src dst)

end DpdkBeginners.Pool
