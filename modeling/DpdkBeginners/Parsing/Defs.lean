import DpdkBeginners.Rte.Access

/-!
# The packet printer

`parse_packet` is the same in `thread_parsing` and in `ports/packet_parsing`.  It is a program over the bytes
of the buffer, and returns what it prints, layer by layer; the texts around the values are left out.
-/

namespace DpdkBeginners.Parsing

open DpdkBeginners.Rte DpdkBeginners.Lib

/-- What is printed of one layer. -/
inductive Layer
  | ethernet (src dst : List U8)
  | vlanTag (tci : U16)
  | ipv4 (src dst : List U32)
  | udp (srcPort dstPort : U16)
  | tcp (srcPort dstPort : U16) (seqNum ackNum : U32) (flags : U8)
  | icmp (icmpType icmpCode : U8)
  | ipv6 (src dst : List U8)
  | udpIpv6 (srcPort dstPort : U16)
  | tcpIpv6 (srcPort dstPort : U16)
  deriving DecidableEq

/-- The four numbers of an IPv4 address. -/
def octets (addr : U32) : List U32 :=
  [addr &&& 0xff, (addr >>> 8) &&& 0xff, (addr >>> 16) &&& 0xff, (addr >>> 24) &&& 0xff]

/-- The source and the destination port of a header at the offset. -/
def loadPorts (offset : U16) : ByteProg (U16 × U16) := do
  let srcPort ← loadWord offset.toNat
  let dstPort ← loadWord (offset.toNat + 2)
  pure (rteBeToCpu16 srcPort, rteBeToCpu16 dstPort)

/-- The layer behind an IPv4 header. -/
def parseIpv4Payload (proto : U8) (offset : U16) : ByteProg (List Layer) :=
  if proto = ipprotoUdp then do
    let (srcPort, dstPort) ← loadPorts offset
    pure [.udp srcPort dstPort]
  else if proto = ipprotoTcp then do
    let (srcPort, dstPort) ← loadPorts offset
    let sentSeq ← loadLong (offset.toNat + 4)
    let recvAck ← loadLong (offset.toNat + 8)
    let tcpFlags ← loadByte (offset.toNat + 13)
    -- for the offset behind the options, which nothing uses
    let _dataOff ← loadByte (offset.toNat + 12)
    pure [.tcp srcPort dstPort (rteBeToCpu32 sentSeq) (rteBeToCpu32 recvAck) tcpFlags]
  else if proto = ipprotoIcmp then do
    let icmpType ← loadByte offset.toNat
    let icmpCode ← loadByte (offset.toNat + 1)
    pure [.icmp icmpType icmpCode]
  else pure []

/-- An IPv4 header at the offset and what is behind it. -/
def parseIpv4 (offset : U16) : ByteProg (List Layer) := do
  let srcAddr ← loadLong (offset.toNat + 12)
  let dstAddr ← loadLong (offset.toNat + 16)
  let proto ← loadByte (offset.toNat + 9)
  let versionIhl ← loadByte offset.toNat
  let ihl : U16 := (versionIhl &&& 0x0f).setWidth 16 * 4
  let payload ← parseIpv4Payload proto (offset + ihl)
  pure (.ipv4 (octets srcAddr) (octets dstAddr) :: payload)

/-- The layer behind an IPv6 header. -/
def parseIpv6Payload (proto : U8) (offset : U16) : ByteProg (List Layer) :=
  if proto = ipprotoUdp then do
    let (srcPort, dstPort) ← loadPorts offset
    pure [.udpIpv6 srcPort dstPort]
  else if proto = ipprotoTcp then do
    let (srcPort, dstPort) ← loadPorts offset
    pure [.tcpIpv6 srcPort dstPort]
  else pure []

/-- An IPv6 header at the offset and what is behind it. -/
def parseIpv6 (offset : U16) : ByteProg (List Layer) := do
  let srcAddr ← loadBytes (offset.toNat + 8) 16
  let dstAddr ← loadBytes (offset.toNat + 24) 16
  let proto ← loadByte (offset.toNat + 6)
  let payload ← parseIpv6Payload proto (offset + 40)
  pure (.ipv6 srcAddr dstAddr :: payload)

/-- What is behind the Ethernet header and its tag. -/
def parseL3 (ethType offset : U16) : ByteProg (List Layer) :=
  if ethType = rteEtherTypeIpv4 then parseIpv4 offset
  else if ethType = rteEtherTypeIpv6 then parseIpv6 offset
  else pure []

/-- `parse_packet` -/
def parsePacket : ByteProg (List Layer) := do
  let srcAddr ← loadBytes 6 6
  let dstAddr ← loadBytes 0 6
  let etherType ← loadWord 12
  let ethType := rteBeToCpu16 etherType
  let offset : U16 := 14
  if ethType = rteEtherTypeVlan then do
    let vlanTci ← loadWord offset.toNat
    let ethProto ← loadWord (offset.toNat + 2)
    let l3 ← parseL3 (rteBeToCpu16 ethProto) (offset + 4)
    pure (.ethernet srcAddr dstAddr :: .vlanTag (rteBeToCpu16 vlanTci) :: l3)
  else do
    let l3 ← parseL3 ethType offset
    pure (.ethernet srcAddr dstAddr :: l3)

end DpdkBeginners.Parsing
