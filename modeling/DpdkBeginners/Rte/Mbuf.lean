import DpdkBeginners.Rte.Bytes

/-!
# Packet buffers and their headers

An mbuf is its data, from the first byte of the Ethernet header on, and the number of bytes that
belong to the packet.  The programs reach every header by a fixed offset: the IPv4 header follows the
14 bytes of Ethernet, and the TCP or UDP header is taken to follow 20 bytes of IPv4.

`Mbuf.header` is what the programs decide by; writing an address or a port changes that field of it
and no other, and writing a checksum changes none.
-/

namespace DpdkBeginners.Rte

/-- A packet buffer: `rte_pktmbuf_mtod(m)` and `data_len`. -/
structure Mbuf where
  data : Bytes
  dataLen : ℕ

/-- `sizeof(struct rte_ether_hdr)`: where the IPv4 header starts. -/
abbrev ipOff : ℕ := 14

/-- `ip + 1`: where the code takes the TCP or UDP header to start. -/
abbrev l4Off : ℕ := 34

/-- `RTE_ETHER_TYPE_IPV4`. -/
def rteEtherTypeIpv4 : U16 := 0x0800

/-- `RTE_ETHER_TYPE_IPV6`. -/
def rteEtherTypeIpv6 : U16 := 0x86dd

/-- `RTE_ETHER_TYPE_VLAN`. -/
def rteEtherTypeVlan : U16 := 0x8100

/-- `IPPROTO_ICMP`. -/
def ipprotoIcmp : U8 := 1

/-- `IPPROTO_TCP`. -/
def ipprotoTcp : U8 := 6

/-- `IPPROTO_UDP`. -/
def ipprotoUdp : U8 := 17

theorem ne_tcp_of_udp {proto : U8} (h : proto = ipprotoUdp) : proto ≠ ipprotoTcp := by
  rw [h]
  decide

theorem proto_ne_zero {proto : U8} (h : proto = ipprotoTcp ∨ proto = ipprotoUdp) : proto ≠ 0 := by
  rcases h with rfl | rfl <;> decide

namespace Mbuf

variable (m : Mbuf)

/-! ### The fields the programs read and write -/

def etherType : U16 := load16 m.data 12
def nextProtoId : U8 := m.data 23
def srcAddr : U32 := load32 m.data 26
def dstAddr : U32 := load32 m.data 30
def srcPort : U16 := load16 m.data 34
def dstPort : U16 := load16 m.data 36

def setHdrChecksum (v : U16) : Mbuf := { m with data := store16 m.data 24 v }
def setSrcAddr (v : U32) : Mbuf := { m with data := store32 m.data 26 v }
def setDstAddr (v : U32) : Mbuf := { m with data := store32 m.data 30 v }
def setSrcPort (v : U16) : Mbuf := { m with data := store16 m.data 34 v }
def setDstPort (v : U16) : Mbuf := { m with data := store16 m.data 36 v }

/-- `udp->dgram_cksum`. -/
def setDgramCksum (v : U16) : Mbuf := { m with data := store16 m.data 40 v }

/-- `tcp->cksum`. -/
def setTcpCksum (v : U16) : Mbuf := { m with data := store16 m.data 50 v }

/-- The frame is IPv4: `eth->ether_type == rte_cpu_to_be_16(RTE_ETHER_TYPE_IPV4)`. -/
def IsIpv4 : Prop := m.etherType = rteCpuToBe16 rteEtherTypeIpv4

instance : Decidable m.IsIpv4 := inferInstanceAs (Decidable (_ = _))

end Mbuf

/-! ### The fields the programs decide by -/

/-- The EtherType of a packet and its 5-tuple. -/
structure Header where
  etherType : U16
  proto : U8
  srcAddr : U32
  dstAddr : U32
  srcPort : U16
  dstPort : U16

namespace Mbuf

variable (m : Mbuf)

/-- What the programs decide by, read off the packet. -/
def header : Header :=
  ⟨m.etherType, m.nextProtoId, m.srcAddr, m.dstAddr, m.srcPort, m.dstPort⟩

@[simp] theorem header_setSrcAddr (v : U32) :
    (m.setSrcAddr v).header = { m.header with srcAddr := v } := by
  simp (disch := omega) [header, setSrcAddr, etherType, nextProtoId, srcAddr, dstAddr, srcPort,
    dstPort, load32_store32, load16_store32_of_disjoint, load32_store32_of_disjoint, store32_apply]

@[simp] theorem header_setDstAddr (v : U32) :
    (m.setDstAddr v).header = { m.header with dstAddr := v } := by
  simp (disch := omega) [header, setDstAddr, etherType, nextProtoId, srcAddr, dstAddr, srcPort,
    dstPort, load32_store32, load16_store32_of_disjoint, load32_store32_of_disjoint, store32_apply]

@[simp] theorem header_setSrcPort (v : U16) :
    (m.setSrcPort v).header = { m.header with srcPort := v } := by
  simp (disch := omega) [header, setSrcPort, etherType, nextProtoId, srcAddr, dstAddr, srcPort,
    dstPort, load16_store16, load16_store16_of_disjoint, load32_store16_of_disjoint, store16_apply]

@[simp] theorem header_setDstPort (v : U16) :
    (m.setDstPort v).header = { m.header with dstPort := v } := by
  simp (disch := omega) [header, setDstPort, etherType, nextProtoId, srcAddr, dstAddr, srcPort,
    dstPort, load16_store16, load16_store16_of_disjoint, load32_store16_of_disjoint, store16_apply]

/-- A store between the protocol and the addresses, or behind the ports, changes none of them. -/
theorem header_store16 {o : ℕ} (v : U16) (h : o = 24 ∨ 38 ≤ o) :
    ({ m with data := store16 m.data o v } : Mbuf).header = m.header := by
  simp (disch := omega) [header, etherType, nextProtoId, srcAddr, dstAddr, srcPort, dstPort,
    load16_store16_of_disjoint, load32_store16_of_disjoint, store16_apply]

@[simp] theorem header_setHdrChecksum (v : U16) : (m.setHdrChecksum v).header = m.header :=
  m.header_store16 v (by omega)

@[simp] theorem header_setTcpCksum (v : U16) : (m.setTcpCksum v).header = m.header :=
  m.header_store16 v (by omega)

@[simp] theorem header_setDgramCksum (v : U16) : (m.setDgramCksum v).header = m.header :=
  m.header_store16 v (by omega)

end Mbuf

/-! ### Packets -/

/-- `RTE_IPV4(a, b, c, d)`, a number in host order. -/
def rteIpv4 (a b c d : U8) : U32 := a ++ b ++ c ++ d

/-- The address `a.b.c.d` as it stands in a packet. -/
def netAddr (a b c d : U8) : U32 := rteCpuToBe32 (rteIpv4 a b c d)

/-- The fixed fields of a TCP or UDP packet without payload, its checksums not filled in. -/
def l4Base (proto : U8) : Mbuf where
  data i :=
    if i = 12 then 0x08
    else if i = 14 then 0x45
    else if i = 17 then if proto = ipprotoTcp then 40 else 28
    else if i = 22 then 64
    else if i = 23 then proto
    else if i = 39 then if proto = ipprotoTcp then 0 else 8
    else if i = 46 then if proto = ipprotoTcp then 0x50 else 0
    else 0
  dataLen := if proto = ipprotoTcp then 54 else 42

/-- A TCP or UDP packet with the given 5-tuple. -/
def l4Frame (proto : U8) (sip dip : U32) (sport dport : U16) : Mbuf :=
  ((((l4Base proto).setSrcAddr sip).setDstAddr dip).setSrcPort sport).setDstPort dport

theorem l4Frame_header (proto : U8) (sip dip : U32) (sport dport : U16) :
    (l4Frame proto sip dip sport dport).header =
      ⟨rteCpuToBe16 rteEtherTypeIpv4, proto, sip, dip, sport, dport⟩ := by
  have hbase : (l4Base proto).etherType = rteCpuToBe16 rteEtherTypeIpv4 := by
    show (0x00#8 ++ 0x08#8 : U16) = _
    decide
  unfold l4Frame
  simp only [Mbuf.header_setDstPort, Mbuf.header_setSrcPort, Mbuf.header_setDstAddr,
    Mbuf.header_setSrcAddr]
  rw [← hbase]
  rfl

end DpdkBeginners.Rte
