import DpdkBeginners.Lib.Run
import DpdkBeginners.Rte.Env
import DpdkBeginners.Rte.Mbuf
import DpdkBeginners.Rte.TxBurst

/-!
# The programs that list the addresses they see

`nat_project/sample` and `nat_project/version2` have the same main loop: `hash_ips` prints for each address of a
packet whether it is in a table, and adds it; after five seconds without a packet the table is printed, and the next
packet starts the timer again.  They differ in what they take down (the addresses of an IPv4 packet, or also its
ports when it is TCP or UDP), and only `version2` empties the table.

* `Program` is what differs, and `sample` and `version2` are the two.
* An event is one iteration of the loop, with what it prints and the mbufs it gives away.  Of `rte_hash_add_key_data`
  each packet comes with the answers for its addresses.
* `rte_hash_iterate` goes through the entries in any order.
-/

namespace DpdkBeginners.Tracking

open DpdkBeginners.Rte DpdkBeginners.Lib

/-- Which end of a packet an address is. -/
inductive Side
  | src
  | dst
  deriving DecidableEq

/-- What is printed. -/
inductive Line (κ : Type*)
  /-- `First packet received. Timer started.` -/
  | timerStarted
  /-- `New SRC: `, `New DST: ` -/
  | new (side : Side) (k : κ)
  /-- `SRC exists: `, `DST exists: ` -/
  | known (side : Side) (k : κ)
  /-- `Received %u packets | Time: %lu sec` -/
  | received (nbRx : ℕ) (elapsed : U64)
  /-- `No packets for 5 seconds. Timer reset.` -/
  | timerReset
  /-- what `hash_ips_dump` prints -/
  | dump (keys : List κ)
  deriving DecidableEq

/-- What differs between the two programs: the keys of a packet, the data that is stored under a key, what
`hash_ips_dump` prints of an entry, and whether the table is emptied. -/
structure Program (κ ν : Type*) where
  keys : Mbuf → List (Side × κ)
  data : κ → ν
  dumped : κ → ν → κ
  resets : Bool
  /-- The dump prints the key. -/
  dumped_data : ∀ k, dumped k (data k) = k

/-! ### The two programs -/

/-- The keys of a packet in `hash_ips` of `sample`. -/
def keysSample (m : Mbuf) : List (Side × U32) :=
  if ¬ m.IsIpv4 then [] else [(.src, m.srcAddr), (.dst, m.dstAddr)]

/-- `struct ip_port_key`. -/
structure IpPortKey where
  ip : U32
  port : U16
  deriving DecidableEq

/-- The keys of a packet in `hash_ips` of `version2`. -/
def keysVersion2 (m : Mbuf) : List (Side × IpPortKey) :=
  if ¬ m.IsIpv4 then []
  else if m.nextProtoId = ipprotoTcp then [(.src, ⟨m.srcAddr, m.srcPort⟩), (.dst, ⟨m.dstAddr, m.dstPort⟩)]
  else if m.nextProtoId = ipprotoUdp then [(.src, ⟨m.srcAddr, m.srcPort⟩), (.dst, ⟨m.dstAddr, m.dstPort⟩)]
  else []

/-- `nat_project/sample`; it stores the address as a pointer, and prints that. -/
def sample : Program U32 U64 where
  keys := keysSample
  data ip := ip.setWidth 64
  dumped _ v := v.setWidth 32
  resets := false
  dumped_data ip := by simp

/-- `nat_project/version2`. -/
def version2 : Program IpPortKey U64 where
  keys := keysVersion2
  data _ := 1
  dumped k _ := k
  resets := true
  dumped_data _ := rfl

variable {ι κ ν : Type*}

section HashIps

variable [DecidableEq κ] (P : Program κ ν)

/-- A packet of a burst: its name, its data, and whether an add of its source and of its destination succeeds. -/
abbrev RxMbuf (ι : Type*) := ι × Mbuf × (Side → Bool)

/-- The keys of a packet, with the answers. -/
def attempts (b : RxMbuf ι) : List (Side × κ × Bool) := (P.keys b.2.1).map fun x => (x.1, x.2, b.2.2 x.1)

/-- What `hash_ips` does for one key. -/
def hashKey (t : RteHash κ ν) (x : Side × κ × Bool) : RteHash κ ν × Line κ :=
  match rteHashLookupData t x.2.1 with
  | none => (rteHashAddKeyData x.2.2 t x.2.1 (P.data x.2.1), .new x.1 x.2.1)
  | some _ => (t, .known x.1 x.2.1)

/-- The keys of one packet, one after the other. -/
def hashKeys (t : RteHash κ ν) : List (Side × κ × Bool) → RteHash κ ν × List (Line κ)
  | [] => (t, [])
  | x :: xs =>
    let (t, line) := hashKey P t x
    let (t, lines) := hashKeys t xs
    (t, line :: lines)

/-- `hash_ips`. -/
def hashIps (t : RteHash κ ν) : List (RxMbuf ι) → RteHash κ ν × List (Line κ)
  | [] => (t, [])
  | b :: bufs =>
    let (t, lines) := hashKeys P t (attempts P b)
    let (t, rest) := hashIps t bufs
    (t, lines ++ rest)

/-- `hash_ips_dump`, when `rte_hash_iterate` goes through the table in the order `order`. -/
def hashIpsDump (t : RteHash κ ν) (order : List κ) : Line κ :=
  .dump (order.filterMap fun k => (t k).map (P.dumped k))

/-! ### The main loop -/

/-- The variables of `main` and the table. -/
structure State (κ ν : Type*) where
  started : Bool
  startTsc : U64
  lastRxTsc : U64
  table : RteHash κ ν

/-- The state when the loop starts. -/
def init : State κ ν := ⟨false, 0, 0, rteHashEmpty⟩

/-- What an iteration is given. -/
inductive Poll (ι κ : Type*)
  /-- a burst, and the clock readings when the timer is started, after `hash_ips` and for the elapsed time -/
  | burst (bufs : List (RxMbuf ι)) (first last after : U64)
  /-- no packet, the clock reading, and an order of the table -/
  | empty (now : U64) (order : List κ)

/-- An iteration of the main loop, with what it prints and the mbufs it gives away. -/
def iteration (hz : U64) (tx : TxQueue ι) (s : State κ ν) :
    Poll ι κ → State κ ν × List (Line κ) × List (MbufOp ι)
  | .burst bufs first last after =>
    let (startTsc, startLines) := if s.started then (s.startTsc, []) else (first, [.timerStarted])
    let (table, lines) := hashIps P s.table bufs
    (⟨true, startTsc, last, table⟩,
      startLines ++ lines ++ [.received bufs.length ((after - startTsc) / hz)],
      sendOrFree tx (bufs.map Prod.fst))
  | .empty now order =>
    if s.started then
      if 5 ≤ (now - s.lastRxTsc) / hz then
        (⟨false, 0, 0, if P.resets then rteHashEmpty else s.table⟩,
          [.timerReset, hashIpsDump P s.table order], [])
      else (s, [], [])
    else (s, [], [])

/-- A burst has a packet; an order of the table has each of its keys once. -/
def Enabled (s : State κ ν) : Poll ι κ → Prop
  | .burst bufs _ _ _ => bufs ≠ []
  | .empty _ order => order.Nodup ∧ ∀ k, k ∈ order ↔ s.table k ≠ none

/-- An iteration: what it is given, the transmit queue, what it prints and the mbufs it gives away. -/
structure Event (ι κ : Type*) where
  poll : Poll ι κ
  tx : TxQueue ι
  lines : List (Line κ)
  ops : List (MbufOp ι)

/-- One step of the program. -/
def Step (hz : U64) (s : State κ ν) (ev : Event ι κ) (t : State κ ν) : Prop :=
  Enabled s ev.poll ∧ iteration P hz ev.tx s ev.poll = (t, ev.lines, ev.ops)

end HashIps

end DpdkBeginners.Tracking
