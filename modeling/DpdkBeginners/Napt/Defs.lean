import DpdkBeginners.Rte.Env
import DpdkBeginners.Rte.Mbuf
import DpdkBeginners.Lib.Run
import DpdkBeginners.Lib.Index

/-!
# The NAPT of `nat_project/version6`

The state of `static_nat.c` and its functions, one definition for each.

* A pointer to a `struct nat_entry` is a number; the heap gives the entry that is allocated there.
  A function that would read an entry that is not allocated returns `none`.
* The timer of an entry is named by the pointer of the entry; the armed ones are `timers`.
* What the environment decides in one call is an `Outcome`: what `rte_malloc` returns and whether
  each of the two inserts succeeds.  `rte_malloc` returns memory that is not allocated (`Enabled`).
* A run is a sequence of packets and timer expiries, in any order (`Step`).

The log lines are left out.
-/

namespace DpdkBeginners.Napt

open DpdkBeginners.Rte DpdkBeginners.Lib

/-! ### Data -/

/-- `struct nat_key`. -/
structure NatKey where
  srcIp : U32
  dstIp : U32
  srcPort : U16
  dstPort : U16
  proto : U8
  deriving DecidableEq

/-- `struct nat_entry`, without its timer. -/
structure NatEntry where
  fwdKey : NatKey
  revKey : NatKey
  privateIp : U32
  privatePort : U16
  publicIp : U32
  publicPort : U16
  remoteIp : U32
  remotePort : U16
  proto : U8

abbrev Ptr := ℕ

/-- The static variables of `static_nat.c`, the entries that are allocated and the armed timers. -/
structure NatState where
  publicIp : U32
  currentPort : U16
  fwdHash : RteHash NatKey Ptr
  revHash : RteHash NatKey Ptr
  heap : Ptr → Option NatEntry
  timers : RteTimers Ptr

/-- What the environment decides in one call of `nat_process_packet`. -/
structure Outcome where
  /-- the pointer `rte_malloc` returns, or `NULL` -/
  malloc : Option Ptr
  /-- the insert into `fwd_hash` succeeds -/
  addFwd : Bool
  /-- the insert into `rev_hash` succeeds -/
  addRev : Bool

/-- `NAT_TIMEOUT_SEC`. -/
def natTimeoutSec : U64 := 30

/-- `MAX_PORT`. -/
def maxPort : U16 := 65535

/-- `MIN_PORT`. -/
def minPort : U16 := 1024

/-- `NAT_TIMEOUT_SEC * rte_get_timer_hz()`. -/
def timeout (E : Env) : U64 := natTimeoutSec * E.timerHz

/-! ### Allocating ports and entries -/

/-- What `allocate_port` makes of `current_port`. -/
def nextPort (c : U16) : U16 := if maxPort ≤ c + 1 then minPort else c + 1

/-- `allocate_port`: the port is returned in network order. -/
def allocatePort (s : NatState) : NatState × U16 :=
  ({ s with currentPort := nextPort s.currentPort }, rteCpuToBe16 (nextPort s.currentPort))

/-- The fields that `create_entry` sets. -/
def newEntry (publicIp : U32) (publicPort : U16) (sip : U32) (sport : U16) (dip : U32) (dport : U16)
    (proto : U8) : NatEntry where
  privateIp := sip
  privatePort := sport
  remoteIp := dip
  remotePort := dport
  publicIp := publicIp
  publicPort := publicPort
  proto := proto
  fwdKey := ⟨sip, dip, sport, dport, proto⟩
  revKey := ⟨dip, publicIp, dport, publicPort, proto⟩

/-- `nat_entry_expire`; `none` when the entry it is called with is not allocated. -/
def natEntryExpire (s : NatState) (p : Ptr) : Option NatState :=
  match s.heap p with
  | none => none
  | some e =>
    some { s with
      fwdHash := rteHashDelKey s.fwdHash e.fwdKey
      revHash := rteHashDelKey s.revHash e.revKey
      heap := Function.update s.heap p none }

/-- `create_entry`, at the clock reading `now`: the new state and the pointer or `NULL`.  The inserts
come after the timer is armed, and their return values are not looked at. -/
def createEntry (E : Env) (now : ℕ) (o : Outcome) (s : NatState) (sip : U32) (sport : U16)
    (dip : U32) (dport : U16) (proto : U8) : NatState × Option Ptr :=
  match o.malloc with
  | none => (s, none)
  | some p =>
    let (s', port) := allocatePort s
    let e := newEntry s.publicIp port sip sport dip dport proto
    ({ s' with
      heap := Function.update s.heap p (some e)
      timers := rteTimerReset s.timers p (now + (timeout E).toNat)
      fwdHash := rteHashAddKeyData o.addFwd s.fwdHash e.fwdKey p
      revHash := rteHashAddKeyData o.addRev s.revHash e.revKey p }, some p)

/-- `refresh`: the timer is stopped and armed anew. -/
def refresh (E : Env) (now : ℕ) (s : NatState) (p : Ptr) : NatState :=
  { s with timers := rteTimerReset (rteTimerStop s.timers p) p (now + (timeout E).toNat) }

/-! ### Packets -/

/-- `parse`: the five values it stores, as the key that both lookups are made with; `none` is the
return value `-1`. -/
def parse (m : Mbuf) : Option NatKey :=
  if ¬ m.IsIpv4 then none
  else if m.nextProtoId = ipprotoTcp then
    some ⟨m.srcAddr, m.dstAddr, m.srcPort, m.dstPort, m.nextProtoId⟩
  else if m.nextProtoId = ipprotoUdp then
    some ⟨m.srcAddr, m.dstAddr, m.srcPort, m.dstPort, m.nextProtoId⟩
  else none

/-- `rewrite_out`. -/
def rewriteOut (E : Env) (m : Mbuf) (e : NatEntry) : Mbuf :=
  let m₁ := m.setSrcAddr e.publicIp
  let m₂ :=
    if e.proto = ipprotoTcp then
      let m' := m₁.setSrcPort e.publicPort
      m'.setTcpCksum (E.ipv4UdptcpCksum m'.data ipOff l4Off)
    else
      let m' := m₁.setSrcPort e.publicPort
      m'.setDgramCksum (E.ipv4UdptcpCksum m'.data ipOff l4Off)
  m₂.setHdrChecksum (E.ipv4Cksum m₂.data ipOff)

/-- `rewrite_in`. -/
def rewriteIn (E : Env) (m : Mbuf) (e : NatEntry) : Mbuf :=
  let m₁ := m.setDstAddr e.privateIp
  let m₂ :=
    if e.proto = ipprotoTcp then
      let m' := m₁.setDstPort e.privatePort
      m'.setTcpCksum (E.ipv4UdptcpCksum m'.data ipOff l4Off)
    else
      let m' := m₁.setDstPort e.privatePort
      m'.setDgramCksum (E.ipv4UdptcpCksum m'.data ipOff l4Off)
  m₂.setHdrChecksum (E.ipv4Cksum m₂.data ipOff)

/-- What a call of `nat_process_packet` leaves behind: its return value, the packet, the state. -/
structure Result where
  ret : Int
  mbuf : Mbuf
  state : NatState

/-- `nat_process_packet`, at the clock reading `now`; `none` when it would read an entry that is not
allocated. -/
def natProcessPacket (E : Env) (now : ℕ) (o : Outcome) (s : NatState) (m : Mbuf) : Option Result :=
  match parse m with
  | none => some ⟨-1, m, s⟩
  | some k =>
    if k.dstIp = s.publicIp then
      match rteHashLookupData s.revHash k with
      | none => some ⟨-1, m, s⟩
      | some p =>
        match s.heap p with
        | none => none
        | some e => some ⟨0, rewriteIn E m e, refresh E now s p⟩
    else
      match rteHashLookupData s.fwdHash k with
      | none =>
        match createEntry E now o s k.srcIp k.srcPort k.dstIp k.dstPort k.proto with
        | (s', none) => some ⟨-1, m, s'⟩
        | (s', some p) =>
          match s'.heap p with
          | none => none
          | some e => some ⟨0, rewriteOut E m e, s'⟩
      | some p =>
        match s.heap p with
        | none => none
        | some e => some ⟨0, rewriteOut E m e, refresh E now s p⟩

/-- `nat_init`, when both tables are created. -/
def natInit (publicIp : U32) : NatState where
  publicIp := publicIp
  currentPort := minPort
  fwdHash := rteHashEmpty
  revHash := rteHashEmpty
  heap _ := none
  timers := []

/-! ### Runs -/

/-- What can happen: a packet is processed, or the timer of an entry expires. -/
inductive Event
  | packet (now : ℕ) (m : Mbuf) (o : Outcome)
  | expire (p : Ptr)

/-- An expiry is of an armed timer, and `rte_malloc` does not return memory that is allocated. -/
def Enabled (s : NatState) : Event → Prop
  | .packet _ _ o => ∀ p, o.malloc = some p → s.heap p = none
  | .expire p => Armed s.timers p

/-- A `SINGLE` timer is no longer armed when its callback runs. -/
def fire (s : NatState) (p : Ptr) : Option NatState :=
  natEntryExpire { s with timers := rteTimerStop s.timers p } p

/-- The state after an event; `none` when it reads or frees an entry that is not allocated. -/
def step (E : Env) (s : NatState) : Event → Option NatState
  | .packet now m o => (natProcessPacket E now o s m).map Result.state
  | .expire p => fire s p

/-- One step of the NAT. -/
def Step (E : Env) (s : NatState) (ev : Event) (t : NatState) : Prop :=
  Enabled s ev ∧ step E s ev = some t

/-- `rte_malloc` and the inserts succeed. -/
def Outcome.Succeeds (o : Outcome) : Prop :=
  o.malloc ≠ none ∧ o.addFwd = true ∧ o.addRev = true

end DpdkBeginners.Napt
