import DpdkBeginners.Rte.Env
import DpdkBeginners.Rte.Pktmbuf

/-!
# The VXLAN forwarder

`vxlan_encap` puts 50 bytes of headers before a frame, `vxlan_decap` takes the 50 bytes before the inner
frame away when the outer headers are those of a VXLAN packet, and the main loop decapsulates what it
can and encapsulates the rest.

The header checksum is computed while the field still holds what the buffer held there before.
-/

namespace DpdkBeginners.Vxlan

open DpdkBeginners.Rte
open Function (update)

/-- `VXLAN_PORT`. -/
def vxlanPort : U16 := 4789

/-- `VXLAN_VNI`. -/
def vxlanVni : U32 := 100

/-- The Ethernet, IPv4, UDP and VXLAN headers. -/
def headersLen : ℕ := 14 + 20 + 8 + 8

/-! ### The headers that `vxlan_encap` writes -/

section Headers

variable (b : Bytes)

def writeEther (eth : ℕ) : Bytes :=
  let b := storeBytes b eth [0x08, 0x00, 0x27, 0xab, 0xcd, 0xef]
  let b := storeBytes b (eth + 6) [0x08, 0x00, 0x27, 0x12, 0x34, 0x56]
  store16 b (eth + 12) (rteCpuToBe16 rteEtherTypeIpv4)

def writeIpv4 (E : Env) (ip : ℕ) (totalLength : U16) : Bytes :=
  let b := update b ip 0x45
  let b := update b (ip + 1) 0
  let b := store16 b (ip + 2) (rteCpuToBe16 totalLength)
  let b := store16 b (ip + 4) 0
  let b := store16 b (ip + 6) 0
  let b := update b (ip + 8) 64
  let b := update b (ip + 9) ipprotoUdp
  let b := store32 b (ip + 12) (rteCpuToBe32 (rteIpv4 10 0 0 1))
  let b := store32 b (ip + 16) (rteCpuToBe32 (rteIpv4 10 0 0 2))
  store16 b (ip + 10) (E.ipv4Cksum b ip)

def writeUdp (udp : ℕ) (dgramLen : U16) : Bytes :=
  let b := store16 b udp (rteCpuToBe16 12345)
  let b := store16 b (udp + 2) (rteCpuToBe16 vxlanPort)
  let b := store16 b (udp + 4) (rteCpuToBe16 dgramLen)
  store16 b (udp + 6) 0

def writeVxlan (vxlan : ℕ) : Bytes :=
  let b := store32 b vxlan (rteCpuToBe32 0x08000000)
  store32 b (vxlan + 4) (rteCpuToBe32 (vxlanVni <<< 8))

def writeHeaders (E : Env) (eth : ℕ) (pktLen : U16) : Bytes :=
  let ip := eth + 14
  let udp := ip + 20
  let vxlan := udp + 8
  let b := writeEther b eth
  let b := writeIpv4 b E ip (20 + 8 + 8 + pktLen)
  let b := writeUdp b udp (8 + 8 + pktLen)
  writeVxlan b vxlan

end Headers

/-! ### The functions of the program -/

/-- `vxlan_encap`; `none` is a store through the null pointer that `rte_pktmbuf_prepend` returns. -/
def vxlanEncap (E : Env) (m : Pktmbuf) : Option Pktmbuf :=
  let pktLen := m.pktLen
  (m.prepend headersLen).map fun m => { m with buf := writeHeaders m.buf E m.dataOff pktLen }

/-- `vxlan_decap`: its return value and the mbuf after it. -/
def vxlanDecap (m : Pktmbuf) : Int × Pktmbuf :=
  if m.mtod.etherType ≠ rteCpuToBe16 rteEtherTypeIpv4 then (-1, m)
  else if m.mtod.nextProtoId ≠ ipprotoUdp then (-1, m)
  else if m.mtod.dstPort ≠ rteCpuToBe16 vxlanPort then (-1, m)
  else (0, m.adj headersLen)

/-- What the main loop does to a received mbuf before it offers it to `rte_eth_tx_burst`. -/
def forward (E : Env) (m : Pktmbuf) : Option Pktmbuf :=
  let (ret, m') := vxlanDecap m
  if ret = 0 then some m' else vxlanEncap E m'

end DpdkBeginners.Vxlan
