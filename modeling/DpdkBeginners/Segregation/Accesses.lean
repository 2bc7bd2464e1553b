import DpdkBeginners.Rte.Access
import DpdkBeginners.Segregation.Classify

/-!
# The bytes that the classifier reads

`classify_packet` as a program over the bytes of a packet, with the 16-bit offset of the source.  Each read is
behind a comparison of `data_len` with the end of the header that it belongs to, so only bytes of the frame are
read; and the offset is at most 18 when the header length is added to it, so it never wraps.
-/

namespace DpdkBeginners.Segregation

open DpdkBeginners.Rte DpdkBeginners.Lib

variable {m : Mbuf} {offset n ethType : U16}

/-! ### The program -/

/-- `offset += n`; `none` is an addition that wraps. -/
def advanceOffset (offset n : U16) : Option U16 :=
  if offset.toNat + n.toNat < 65536 then some (offset + n) else none

/-- `classify_packet` from the test of the EtherType on; it returns `none` when the offset wraps. -/
def classifyIpv4Prog (dataLen : ℕ) (ethType offset : U16) : ByteProg (Option Bool) :=
  if ethType ≠ rteEtherTypeIpv4 then pure (some false)
  else if dataLen < offset.toNat + 20 then pure (some false)
  else do
    let proto ← loadByte (offset.toNat + 9)
    let versionIhl ← loadByte offset.toNat
    let ihl := (versionIhl &&& 0x0f).setWidth 16 * 4
    match advanceOffset offset ihl with
    | none => pure none
    | some offset =>
      if proto = ipprotoIcmp then pure (some true)
      -- OSPF
      else if proto = 89 then pure (some true)
      else if proto = ipprotoUdp then
        if dataLen < offset.toNat + 8 then pure (some false)
        else do
          let dstPort ← loadWord (offset.toNat + 2)
          pure (some (isControlUdpPort dstPort))
      else if proto = ipprotoTcp then
        if dataLen < offset.toNat + 20 then pure (some false)
        else do
          let dstPort ← loadWord (offset.toNat + 2)
          pure (some (isControlTcpPort dstPort))
      else pure (some false)

/-- `classify_packet` -/
def classifyProg (dataLen : ℕ) : ByteProg (Option Bool) :=
  if dataLen < 14 then pure (some false)
  else do
    let etherType ← loadWord 12
    let ethType := rteBeToCpu16 etherType
    let offset : U16 := 14
    if ethType = rteEtherTypeVlan then
      if dataLen < offset.toNat + 4 then pure (some false)
      else do
        let ethProto ← loadWord (offset.toNat + 2)
        match advanceOffset offset 4 with
        | none => pure none
        | some offset => classifyIpv4Prog dataLen (rteBeToCpu16 ethProto) offset
    else classifyIpv4Prog dataLen ethType offset

/-! ### What it reads -/

theorem advanceOffset_of_lt (h : offset.toNat + n.toNat < 65536) :
    ∃ offset', advanceOffset offset n = some offset' ∧ offset'.toNat = offset.toNat + n.toNat := by
  refine ⟨offset + n, if_pos h, ?_⟩
  rw [BitVec.toNat_add, Nat.mod_eq_of_lt h]

/-- The program behind the Ethernet header reads the frame only, and decides as the classifier does. -/
theorem below_classifyIpv4Prog (hoff : offset.toNat ≤ 18) :
    Below m.dataLen (classifyIpv4Prog m.dataLen ethType offset) m.data ∧
      (classifyIpv4Prog m.dataLen ethType offset).run m.data =
        (some (classifyIpv4 m ethType offset.toNat), m.data) := by
  obtain ⟨hihl, hle⟩ := toNat_ihl m.data offset.toNat
  obtain ⟨offset', hadv, hoff'⟩ := advanceOffset_of_lt (hihl.symm ▸ (by omega) :
    offset.toNat + ((m.data offset.toNat &&& 0x0f).setWidth 16 * 4 : U16).toNat < 65536)
  rw [hihl] at hoff'
  unfold classifyIpv4Prog classifyIpv4
  by_cases hether : ethType ≠ rteEtherTypeIpv4
  · rw [if_pos hether, if_pos hether]
    exact ⟨trivial, rfl⟩
  by_cases hlen : m.dataLen < offset.toNat + 20
  · rw [if_neg hether, if_neg hether, if_pos hlen, if_pos hlen]
    exact ⟨trivial, rfl⟩
  rw [if_neg hether, if_neg hether, if_neg hlen, if_neg hlen]
  simp only [Prog.within_bind, Prog.run_bind, below_loadByte, run_loadByte, hadv, ihl_eq, hoff',
    Prog.within_ite, Prog.run_ite, Prog.within_pure, Prog.run_pure, below_loadWord, run_loadWord,
    and_true]
  refine ⟨⟨by omega, by omega, ?_⟩, ?_⟩
  · split_ifs <;> first | trivial | omega
  · split_ifs <;> rfl

/-- **Only the frame is read**, whatever its length and its content are, and the offset never wraps. -/
theorem classify_reads_frame (m : Mbuf) :
    Below m.dataLen (classifyProg m.dataLen) m.data ∧
      (classifyProg m.dataLen).run m.data = (some (classifyPacket m), m.data) := by
  unfold classifyProg classifyPacket
  rw [show m.etherType = load16 m.data 12 from rfl]
  by_cases h14 : m.dataLen < 14
  · rw [if_pos h14, if_pos h14]
    exact ⟨trivial, rfl⟩
  rw [if_neg h14, if_neg h14]
  obtain ⟨offset, hadv, hoff⟩ := @advanceOffset_of_lt 14 4 (by decide)
  have hoff : offset.toNat = 18 := hoff
  have hfourteen : (14 : U16).toNat = 14 := rfl
  obtain ⟨htagged, htagged'⟩ :=
    @below_classifyIpv4Prog m offset (rteBeToCpu16 (load16 m.data (14 + 2))) (Nat.le_of_eq hoff)
  obtain ⟨huntagged, huntagged'⟩ :=
    @below_classifyIpv4Prog m 14 (rteBeToCpu16 (load16 m.data 12)) (by decide)
  rw [hoff] at htagged'
  simp only [Prog.within_bind, Prog.run_bind, below_loadWord, run_loadWord, Prog.within_ite,
    Prog.run_ite, Prog.within_pure, Prog.run_pure, hadv, hfourteen]
  refine ⟨⟨by omega, ?_⟩, ?_⟩
  · split_ifs with hvlan h18
    · exact ⟨by omega, htagged⟩
    · exact huntagged
  · split_ifs with hvlan h18
    · rfl
    · exact htagged'
    · exact huntagged'

end DpdkBeginners.Segregation
