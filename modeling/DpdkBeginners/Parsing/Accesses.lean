import DpdkBeginners.Parsing.Defs

/-!
# The bytes that the printer reads

`parse_packet` compares nothing with `data_len`.  What it reads ends where the last field ends that the headers
lead it to (`fieldsEnd`), so it stays inside the frame if and only if the frame is that long
(`inside_frame_iff`), and then it prints the same whatever else is in the buffer (`printed_frame`).
-/

namespace DpdkBeginners.Parsing

open DpdkBeginners.Rte DpdkBeginners.Lib
open Function (update)

variable {d d' : Bytes} {n : ℕ} {proto : U8} {ethType offset : U16}

/-! ### Where the fields end -/

/-- How much is read of the header behind an IPv4 header: both ports, a TCP header up to its flags, or the
type and the code of an ICMP message. -/
def ipv4PayloadFields (proto : U8) : ℕ :=
  if proto = ipprotoUdp then 4 else if proto = ipprotoTcp then 14 else if proto = ipprotoIcmp then 2 else 0

/-- How much is read of the header behind an IPv6 header. -/
def ipv6PayloadFields (proto : U8) : ℕ :=
  if proto = ipprotoUdp then 4 else if proto = ipprotoTcp then 4 else 0

/-- The last field of an IPv4 packet at `ip`. -/
def ipv4FieldsEnd (d : Bytes) (ip : ℕ) : ℕ :=
  let fields := ipv4PayloadFields (d (ip + 9))
  max (ip + 20) (if fields = 0 then 0 else ip + hdrLen d ip + fields)

/-- The last field of an IPv6 packet at `ip`. -/
def ipv6FieldsEnd (d : Bytes) (ip : ℕ) : ℕ := ip + 40 + ipv6PayloadFields (d (ip + 6))

/-- The last field of a packet whose Ethernet header and tag end at `l3`. -/
def l3FieldsEnd (d : Bytes) (ethType : U16) (l3 : ℕ) : ℕ :=
  if ethType = rteEtherTypeIpv4 then ipv4FieldsEnd d l3
  else if ethType = rteEtherTypeIpv6 then ipv6FieldsEnd d l3
  else l3

/-- The last field of a frame. -/
def fieldsEnd (d : Bytes) : ℕ :=
  let ethType := rteBeToCpu16 (load16 d 12)
  if ethType = rteEtherTypeVlan then l3FieldsEnd d (rteBeToCpu16 (load16 d 16)) 18
  else l3FieldsEnd d ethType 14

theorem le_l3FieldsEnd (d : Bytes) (ethType : U16) (l3 : ℕ) : l3 ≤ l3FieldsEnd d ethType l3 := by
  unfold l3FieldsEnd ipv4FieldsEnd ipv6FieldsEnd
  dsimp only
  split_ifs <;> omega

/-! ### The parts of the printer -/

@[simp] theorem below_loadPorts : Below n (loadPorts offset) d ↔ offset.toNat + 4 ≤ n := by
  simp only [loadPorts, Prog.within_bind, below_loadWord, run_loadWord, Prog.within_pure, and_true]
  omega

@[simp] theorem run_loadPorts :
    (loadPorts offset).run d =
      ((rteBeToCpu16 (load16 d offset.toNat), rteBeToCpu16 (load16 d (offset.toNat + 2))), d) := by
  simp [loadPorts]

theorem below_parseIpv4Payload :
    Below n (parseIpv4Payload proto offset) d ↔
      ipv4PayloadFields proto = 0 ∨ offset.toNat + ipv4PayloadFields proto ≤ n := by
  unfold parseIpv4Payload ipv4PayloadFields
  split_ifs
  · simp
  · simp only [Prog.within_bind, below_loadPorts, run_loadPorts, below_loadLong, run_loadLong,
      below_loadByte, run_loadByte, Prog.within_pure, and_true, false_or]
    omega
  · simp only [Prog.within_bind, below_loadByte, run_loadByte, Prog.within_pure, and_true,
      false_or]
    omega
  · simp

theorem below_parseIpv6Payload :
    Below n (parseIpv6Payload proto offset) d ↔
      ipv6PayloadFields proto = 0 ∨ offset.toNat + ipv6PayloadFields proto ≤ n := by
  unfold parseIpv6Payload ipv6PayloadFields
  split_ifs <;> simp

/-- The offset is small when a header length is added to it, and so it does not wrap. -/
theorem below_parseIpv4 (hoff : offset.toNat ≤ 18) :
    Below n (parseIpv4 offset) d ↔ ipv4FieldsEnd d offset.toNat ≤ n := by
  obtain ⟨hihl, hle⟩ := toNat_ihl d offset.toNat
  have hadd : (offset + (d offset.toNat &&& 0x0f).setWidth 16 * 4).toNat =
      offset.toNat + hdrLen d offset.toNat := by
    rw [BitVec.toNat_add, hihl]
    omega
  simp only [parseIpv4, Prog.within_bind, below_loadLong, run_loadLong, below_loadByte, run_loadByte,
    below_parseIpv4Payload, hadd, Prog.within_pure, and_true]
  unfold ipv4FieldsEnd
  dsimp only
  split_ifs <;> omega

theorem below_parseIpv6 (hoff : offset.toNat ≤ 18) :
    Below n (parseIpv6 offset) d ↔ ipv6FieldsEnd d offset.toNat ≤ n := by
  have hadd : (offset + 40).toNat = offset.toNat + 40 := by
    rw [BitVec.toNat_add]
    exact Nat.mod_eq_of_lt (by change _ + 40 < _; omega)
  simp only [parseIpv6, Prog.within_bind, below_loadBytes, run_loadBytes, below_loadByte, run_loadByte,
    below_parseIpv6Payload, hadd, Prog.within_pure, and_true]
  unfold ipv6FieldsEnd
  omega

theorem below_parseL3 (hoff : offset.toNat ≤ 18) (hn : offset.toNat ≤ n) :
    Below n (parseL3 ethType offset) d ↔ l3FieldsEnd d ethType offset.toNat ≤ n := by
  unfold parseL3 l3FieldsEnd
  split_ifs
  · exact below_parseIpv4 hoff
  · exact below_parseIpv6 hoff
  · exact iff_of_true trivial hn

/-! ### The printer -/

/-- **What the printer reads** ends where the fields end. -/
theorem below_parsePacket : Below n parsePacket d ↔ fieldsEnd d ≤ n := by
  have htagged : ((14 : U16) + 4).toNat = 18 := rfl
  have hplain : (14 : U16).toNat = 14 := rfl
  simp only [parsePacket, Prog.within_bind, below_loadBytes, run_loadBytes, below_loadWord, run_loadWord,
    Prog.within_ite, Prog.within_pure, and_true]
  unfold fieldsEnd
  dsimp only
  split_ifs with hvlan
  · have hle := le_l3FieldsEnd d (rteBeToCpu16 (load16 d 16)) 18
    by_cases hn : 18 ≤ n
    · simp only [below_parseL3 (Nat.le_of_eq htagged) (htagged ▸ hn), htagged, hplain,
        Nat.reduceAdd]
      omega
    · rw [hplain]
      omega
  · have hle := le_l3FieldsEnd d (rteBeToCpu16 (load16 d 12)) 14
    by_cases hn : 14 ≤ n
    · simp only [@below_parseL3 d n (rteBeToCpu16 (load16 d 12)) 14 (by decide) (hplain ▸ hn), hplain]
      omega
    · omega

/-- **The printer** reads bytes of the frame only if and only if the frame has all the fields. -/
theorem inside_frame_iff (m : Mbuf) : Below m.dataLen parsePacket m.data ↔ fieldsEnd m.data ≤ m.dataLen :=
  below_parsePacket

/-- What is behind the frame in the buffer is not printed then. -/
theorem printed_frame {m : Mbuf} (h : fieldsEnd m.data ≤ m.dataLen)
    (hd : ∀ i < m.dataLen, m.data i = d' i) : (parsePacket.run d').1 = (parsePacket.run m.data).1 :=
  ((below_parsePacket.2 h).locality hd).2.1.symm

/-- A TCP packet of 60 bytes that says that its IPv4 header has 60. -/
def longHeader : Mbuf where
  data := update (l4Frame ipprotoTcp (netAddr 10 0 0 1) (netAddr 8 8 8 8) (rteCpuToBe16 1000)
    (rteCpuToBe16 80)).data 14 0x4f
  dataLen := 60

/-- **The printer leaves the frame.** -/
theorem longHeader_left : ¬ Below longHeader.dataLen parsePacket longHeader.data := by
  rw [below_parsePacket]
  decide

end DpdkBeginners.Parsing
