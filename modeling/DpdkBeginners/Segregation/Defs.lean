import DpdkBeginners.Rte.Mbuf
import DpdkBeginners.Rte.Ring
import DpdkBeginners.Rte.TxBurst
import DpdkBeginners.Lib.Run

/-!
# The main loop of `control_data_segregation`

Each packet of a burst is classified and enqueued on the ring of its class; then each ring is dequeued
into one burst, which is transmitted.

`mtod` says what a received mbuf holds.  An iteration yields the state after it and the mbufs that it has
given away.  The statistics that the loop prints every two seconds are left out.
-/

namespace DpdkBeginners.Segregation

open DpdkBeginners.Rte DpdkBeginners.Lib

/-- `BURST_SIZE`. -/
def burstSize : ℕ := 32

/-- How many mbufs a ring created with `RING_SIZE` holds. -/
def ringCapacity : ℕ := rteRingCapacity 2048

/-! ### The classifier -/

/-- `is_control_tcp_port`. -/
def isControlTcpPort (dportBe : U16) : Bool :=
  let port := rteBeToCpu16 dportBe
  port = 22 ∨ port = 53 ∨ port = 179 ∨ port = 389

/-- `is_control_udp_port`. -/
def isControlUdpPort (dportBe : U16) : Bool :=
  let port := rteBeToCpu16 dportBe
  port = 53 ∨ port = 67 ∨ port = 68 ∨ port = 123 ∨ port = 161

/-- `classify_packet` from the test of the EtherType on; `offset` is where the IPv4 header starts. -/
def classifyIpv4 (m : Mbuf) (ethType : U16) (offset : ℕ) : Bool :=
  if ethType ≠ rteEtherTypeIpv4 then false
  else if m.dataLen < offset + 20 then false
  else
    let proto := m.data (offset + 9)
    let ihl := (m.data offset &&& 0x0f).toNat * 4
    let offset := offset + ihl
    if proto = ipprotoIcmp then true
    -- OSPF
    else if proto = 89 then true
    else if proto = ipprotoUdp then
      if m.dataLen < offset + 8 then false else isControlUdpPort (load16 m.data (offset + 2))
    else if proto = ipprotoTcp then
      if m.dataLen < offset + 20 then false else isControlTcpPort (load16 m.data (offset + 2))
    else false

/-- `classify_packet`: `true` is control and `false` is data. -/
def classifyPacket (m : Mbuf) : Bool :=
  if m.dataLen < 14 then false
  else
    let ethType := rteBeToCpu16 m.etherType
    if ethType = rteEtherTypeVlan then
      if m.dataLen < 14 + 4 then false
      else classifyIpv4 m (rteBeToCpu16 (load16 m.data (14 + 2))) (14 + 4)
    else classifyIpv4 m ethType 14

/-! ### The loop -/

variable {ι : Type*}

/-- The rings and the counters. -/
structure State (ι : Type*) where
  controlRing : List ι
  dataRing : List ι
  controlCount : U64
  dataCount : U64

/-- The state before the first iteration. -/
def init : State ι := ⟨[], [], 0, 0⟩

section Iteration

variable (mtod : ι → Mbuf)

/-- The body of the loop over a burst. -/
def segregateOne (s : State ι) (m : ι) : State ι × List (MbufOp ι) :=
  if classifyPacket (mtod m) then
    match rteRingEnqueue ringCapacity s.controlRing m with
    | some ring => ({ s with controlRing := ring, controlCount := s.controlCount + 1 }, [])
    | none => (s, [.free m])
  else
    match rteRingEnqueue ringCapacity s.dataRing m with
    | some ring => ({ s with dataRing := ring, dataCount := s.dataCount + 1 }, [])
    | none => (s, [.free m])

/-- The loop over a burst. -/
def segregate (s : State ι) : List ι → State ι × List (MbufOp ι)
  | [] => (s, [])
  | m :: bufs =>
    let (s, ops) := segregateOne mtod s m
    let (s, ops') := segregate s bufs
    (s, ops ++ ops')

/-- Transmit what a dequeue has yielded. -/
def sendBurst (tx : TxQueue ι) (out : List ι) : List (MbufOp ι) :=
  if 0 < out.length then [tx.send out] else []

/-- One iteration of the main loop; `bufs` is what `rte_eth_rx_burst` returns. -/
def iteration (tx : TxQueue ι) (bufs : List ι) (s : State ι) : State ι × List (MbufOp ι) :=
  let (s, frees) := segregate mtod s bufs
  let (control, controlRing) := rteRingDequeueBurst s.controlRing burstSize
  let (data, dataRing) := rteRingDequeueBurst s.dataRing burstSize
  ({ s with controlRing := controlRing, dataRing := dataRing },
    frees ++ sendBurst tx control ++ sendBurst tx data)

/-- An iteration as a step: the burst received, at most as long as was asked for, and the answers of the
transmit queue. -/
def Step (s : State ι) (ev : List ι × TxQueue ι) (s' : State ι) : Prop :=
  ev.1.length ≤ burstSize ∧ (iteration mtod ev.2 ev.1 s).1 = s'

end Iteration

end DpdkBeginners.Segregation
