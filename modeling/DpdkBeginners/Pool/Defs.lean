import DpdkBeginners.Rte.Env
import DpdkBeginners.Rte.Mbuf
import DpdkBeginners.Lib.Run
import DpdkBeginners.Lib.Index
import Mathlib.Algebra.Group.Nat.Defs
import Mathlib.Data.List.Range

/-!
# The NAT pool of `nat_project/version5`

The pool of `static_nat.c` and its functions, one definition for each.

* `entries` is the array of slots; only the indices below `pool_size` belong to it.
* The entry that `inbound_map` holds for an address is the one it points to.
* The calls that `nat_pool_create` ends the program for when they fail are a parameter of it (`Setup`); the runs start
  with the pool that it has filled in (`newPool`).
* `hash inserts succeed`: that is assumed of `outbound_map`, and `nat_inbound_add` ends the program
  when it does not hold of `inbound_map`.
* A clock reading is a parameter of the function that makes it.  A packet makes at most one.

The log lines and `nat_pool_dump` are left out.
-/

namespace DpdkBeginners.Pool

open DpdkBeginners.Rte DpdkBeginners.Lib

/-! ### Data -/

/-- `struct nat_pool_entry`. -/
structure NatPoolEntry where
  privateIp : U32
  publicIp : U32
  lastSeenTsc : U64
  inUse : Bool

/-- `struct nat_inbound_entry`. -/
structure NatInboundEntry where
  publicIp : U32
  privateIp : U32

/-- `struct nat_pool`; `tableTimer` is the deadline of the table timer when it is armed. -/
structure NatPool where
  entries : ℕ → NatPoolEntry
  poolStartIp : U32
  poolSize : U32
  idleTsc : U64
  outboundMap : RteHash U32 ℕ
  inboundMap : RteHash U32 NatInboundEntry
  tableTimer : Option U64
  started : Bool

/-- `IDLE_TIMEOUT_SEC`. -/
def idleTimeoutSec : U64 := 5

variable (E : Env) (pool : NatPool)

/-- Write slot `i`. -/
def NatPool.setEntry (i : ℕ) (e : NatPoolEntry) : NatPool :=
  { pool with entries := Function.update pool.entries i e }

/-! ### Setting up -/

/-- What `nat_pool_create` finds: whether `malloc` and `calloc` return memory, and whether `rte_hash_create` makes a
table with this name and so many entries. -/
structure Setup where
  malloc : Bool
  calloc : Bool
  rteHashCreate : String → U32 → Bool

/-- `RTE_HASH_BUCKET_ENTRIES` and `RTE_HASH_ENTRIES_MAX`. -/
def rteHashBucketEntries : U32 := 8
def rteHashEntriesMax : U32 := 1 <<< 30

/-- `rte_hash_create` refuses fewer entries than a bucket has, and more than there may be. -/
def Setup.Documented (s : Setup) : Prop :=
  ∀ name entries, s.rteHashCreate name entries = true → rteHashBucketEntries ≤ entries ∧ entries ≤ rteHashEntriesMax

/-- `out_params.entries`: the capacity that `outbound_map` is created with. -/
def outParamsEntries (range : U32) : U32 := range * 2

/-- `MAX_INBOUND_ENTRIES`. -/
def maxInboundEntries : U32 := 256

/-- The pool that `nat_pool_create` fills in; `addr` is what `inet_pton` stores for the start address. -/
def newPool (addr range : U32) (hz : U64) : NatPool where
  entries i :=
    { privateIp := 0
      publicIp := rteCpuToBe32 (rteBeToCpu32 addr + BitVec.ofNat 32 i)
      lastSeenTsc := 0
      inUse := false }
  poolStartIp := rteBeToCpu32 addr
  poolSize := range
  idleTsc := hz * idleTimeoutSec
  outboundMap := rteHashEmpty
  inboundMap := rteHashEmpty
  tableTimer := none
  started := false

/-- `nat_pool_create`; `none` is a call of `rte_exit`. -/
def natPoolCreate (s : Setup) (addr range : U32) (hz : U64) : Option NatPool :=
  if s.malloc = false then none
  else if s.calloc = false then none
  else if s.rteHashCreate "nat_outbound_map" (outParamsEntries range) = false then none
  else if s.rteHashCreate "nat_inbound_map" maxInboundEntries = false then none
  else some (newPool addr range hz)

/-- `nat_inbound_add`, of the two addresses as `inet_pton` stores them. -/
def natInboundAdd (publicIp privateIp : U32) : NatPool :=
  { pool with inboundMap := rteHashAddKeyData true pool.inboundMap publicIp ⟨publicIp, privateIp⟩ }

/-- The pool when the main loop of `main.c` starts, with the static mappings `statics`. -/
def initPool (addr range : U32) (hz : U64) (statics : List (U32 × U32)) : NatPool :=
  statics.foldl (fun pool x => natInboundAdd pool x.1 x.2) (newPool addr range hz)

/-! ### Timers -/

/-- A slot when it is released; it keeps its public address. -/
def NatPoolEntry.release (e : NatPoolEntry) : NatPoolEntry :=
  { e with inUse := false, privateIp := 0, lastSeenTsc := 0 }

/-- The body of the loop of `expiry_timer_cb`. -/
def expireSlot (now : U64) (i : ℕ) : NatPool :=
  if (pool.entries i).inUse = false then pool
  else if pool.idleTsc ≤ now - (pool.entries i).lastSeenTsc then
    { pool with
      outboundMap := rteHashDelKey pool.outboundMap (pool.entries i).privateIp
      entries := Function.update pool.entries i (pool.entries i).release }
  else pool

/-- `expiry_timer_cb`, at the clock reading `now`. -/
def expiryTimerCb (now : U64) : NatPool :=
  (List.range pool.poolSize.toNat).foldl (fun pool i => expireSlot pool now i) pool

/-- The loop of `table_timer_cb` and of `nat_pool_reset`. -/
def clearEntries : NatPool :=
  (List.range pool.poolSize.toNat).foldl
    (fun pool i => pool.setEntry i (pool.entries i).release) pool

/-- `table_timer_cb`. -/
def tableTimerCb : NatPool :=
  { clearEntries pool with outboundMap := rteHashEmpty, started := false }

/-- `nat_table_timer_arm`, at the clock reading `now`. -/
def natTableTimerArm (now hz : U64) (timeoutSec : U32) : NatPool :=
  { pool with tableTimer := some (now + hz * timeoutSec.setWidth 64) }

/-- `nat_pool_reset`. -/
def natPoolReset : NatPool :=
  { clearEntries { pool with tableTimer := none } with
    outboundMap := rteHashEmpty, started := false }

/-! ### Packets -/

/-- `find_free_slot`.  The index is cast to `int`. -/
def findFreeSlot : Int :=
  match (List.range pool.poolSize.toNat).find? fun i => (pool.entries i).inUse = false with
  | some i => (BitVec.ofNat 32 i).toInt
  | none => -1

/-- `rewrite_and_recalc`. -/
def rewriteAndRecalc (m : Mbuf) (newIp : U32) (isSrc : Bool) : Mbuf :=
  let m₁ := if isSrc then m.setSrcAddr newIp else m.setDstAddr newIp
  let m₂ := m₁.setHdrChecksum 0
  let m₃ := m₂.setHdrChecksum (E.ipv4Cksum m₂.data ipOff)
  if m₃.nextProtoId = ipprotoTcp then
    let m₄ := m₃.setTcpCksum 0
    m₄.setTcpCksum (E.ipv4UdptcpCksum m₄.data ipOff l4Off)
  else if m₃.nextProtoId = ipprotoUdp then
    let m₄ := m₃.setDgramCksum 0
    m₄.setDgramCksum (E.ipv4UdptcpCksum m₄.data ipOff l4Off)
  else m₃

/-- The body of the loop of `nat_pool_apply`, at the clock reading `now`; `none` is a packet that was
freed. -/
def natApplyPacket (now : U64) (m : Mbuf) : NatPool × Option Mbuf :=
  if ¬ m.IsIpv4 then (pool, some m)
  else
    match rteHashLookupData pool.inboundMap m.dstAddr with
    | some entry => (pool, some (rewriteAndRecalc E m entry.privateIp false))
    | none =>
      match rteHashLookupData pool.outboundMap m.srcAddr with
      | some slot =>
        let pool := pool.setEntry slot { pool.entries slot with lastSeenTsc := now }
        (pool, some (rewriteAndRecalc E m (pool.entries slot).publicIp true))
      | none =>
        let slot := findFreeSlot pool
        if slot < 0 then (pool, none)
        else
          let i := slot.toNat
          let pool := pool.setEntry i
            { pool.entries i with privateIp := m.srcAddr, inUse := true, lastSeenTsc := now }
          let pool :=
            { pool with outboundMap := rteHashAddKeyData true pool.outboundMap m.srcAddr i }
          (pool, some (rewriteAndRecalc E m (pool.entries i).publicIp true))

/-- `nat_pool_apply`, with the clock reading of each packet: the pool, and the buffers. -/
def natPoolApply (pool : NatPool) : List (Mbuf × U64) → NatPool × List (Option Mbuf)
  | [] => (pool, [])
  | (m, now) :: bufs =>
    let (pool, buf) := natApplyPacket E pool now m
    let (pool, rest) := natPoolApply pool bufs
    (pool, buf :: rest)

/-! ### Runs -/

/-- What can happen to a pool, packet by packet. -/
inductive Event
  | packet (m : Mbuf) (now : U64)
  | expiry (now : U64)
  | table
  | arm (now hz : U64) (timeoutSec : U32)
  | reset

/-- The pool after an event.  A `SINGLE` timer is no longer armed when its callback runs. -/
def step (pool : NatPool) : Event → NatPool
  | .packet m now => (natApplyPacket E pool now m).1
  | .expiry now => expiryTimerCb pool now
  | .table => tableTimerCb { pool with tableTimer := none }
  | .arm now hz timeoutSec => natTableTimerArm pool now hz timeoutSec
  | .reset => natPoolReset pool

/-- One step of the pool. -/
def Step (pool : NatPool) (ev : Event) (pool' : NatPool) : Prop := step E pool ev = pool'

/-- A call of one of the functions that change a pool. -/
inductive Call
  | natPoolApply (bufs : List (Mbuf × U64))
  | expiryTimerCb (now : U64)
  | tableTimerCb
  | natTableTimerArm (now hz : U64) (timeoutSec : U32)
  | natPoolReset

/-- The events of a call: a burst is as many events as it has packets. -/
def Call.events : Call → List Event
  | .natPoolApply bufs => bufs.map fun x => .packet x.1 x.2
  | .expiryTimerCb now => [.expiry now]
  | .tableTimerCb => [.table]
  | .natTableTimerArm now hz timeoutSec => [.arm now hz timeoutSec]
  | .natPoolReset => [.reset]

/-- The pool after a call. -/
def exec (pool : NatPool) : Call → NatPool
  | .natPoolApply bufs => (natPoolApply E pool bufs).1
  | .expiryTimerCb now => expiryTimerCb pool now
  | .tableTimerCb => tableTimerCb { pool with tableTimer := none }
  | .natTableTimerArm now hz timeoutSec => natTableTimerArm pool now hz timeoutSec
  | .natPoolReset => natPoolReset pool

end DpdkBeginners.Pool
