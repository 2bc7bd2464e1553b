import DpdkBeginners.Pool.Defs
import DpdkBeginners.Segregation.Defs
import DpdkBeginners.Vxlan.Defs

/-!
# Main loops that forward what they receive

One iteration of the main loops of `nat_project/version5`, of `vxlan` and of `NAT/static_nat`; the one of
`control_data_segregation` is `Segregation.iteration`.

An iteration takes the mbufs that `rte_eth_rx_burst` returns, each with its name and what it holds, and
yields the mbufs it has given away, besides the state or the packets after it.
-/

namespace DpdkBeginners.Forwarding

open DpdkBeginners.Rte

variable {ι : Type*}

/-! ### `nat_project/version5` -/

section Version5

open DpdkBeginners.Pool

/-- `TABLE_TIMEOUT_SEC`. -/
def tableTimeoutSec : U32 := 10

/-- The names of the mbufs that `nat_pool_apply` leaves in the array. -/
def kept (names : List ι) (out : List (Option Mbuf)) : List ι :=
  (names.zip out).filterMap fun x => x.2.map fun _ => x.1

/-- The names of the mbufs that `nat_pool_apply` frees and overwrites with a null pointer. -/
def dropped (names : List ι) (out : List (Option Mbuf)) : List ι :=
  (names.zip out).filterMap fun x => if x.2.isNone then some x.1 else none

/-- The pool when `nat_pool_apply` is called: the table timer has just been armed, at the clock reading
`now`. -/
def beforeApply (hz now : U64) (pool : NatPool) : NatPool :=
  let pool := if pool.started then pool else { pool with started := true }
  natTableTimerArm pool now hz tableTimeoutSec

/-- An iteration of the main loop of `version5`, after `rte_timer_manage`; each packet comes with the clock
reading when it is processed. -/
def version5Iteration (E : Env) (hz now : U64) (tx : TxQueue ι) (pool : NatPool)
    (bufs : List (ι × Mbuf × U64)) : NatPool × List (MbufOp ι) :=
  if 0 < bufs.length then
    let (pool, out) := natPoolApply E (beforeApply hz now pool) (bufs.map Prod.snd)
    let names := bufs.map Prod.fst
    (pool, (dropped names out).map .free ++ (kept names out).map fun m => tx.send [m])
  else (pool, [])

end Version5

/-! ### `vxlan` -/

section Vxlan

open DpdkBeginners.Vxlan

/-- An mbuf as a driver fills it: the data starts behind the headroom. -/
structure RxPktmbuf where
  mbuf : Pktmbuf
  /-- `RTE_PKTMBUF_HEADROOM` -/
  headroom : mbuf.dataOff = 128

/-- An iteration of the main loop of `vxlan`; `none` is a store through a null pointer. -/
def vxlanIteration (E : Env) (tx : TxQueue ι) :
    List (ι × RxPktmbuf) → Option (List Pktmbuf × List (MbufOp ι))
  | [] => some ([], [])
  | (m, buf) :: bufs =>
    match forward E buf.mbuf with
    | none => none
    | some pkt =>
      (vxlanIteration E tx bufs).map fun rest => (pkt :: rest.1, tx.send [m] :: rest.2)

end Vxlan

/-! ### `NAT/static_nat` -/

section StaticNat

/-- `PRIVATE_IP`. -/
def privateIp : U32 := rteIpv4 172 22 116 70

/-- `PUBLIC_IP`. -/
def publicIp : U32 := rteIpv4 203 0 113 10

/-- `simulate_nat`. -/
def simulateNat (E : Env) (m : Mbuf) : Mbuf :=
  if ¬ m.IsIpv4 then m
  else
    let m := if m.srcAddr = rteCpuToBe32 privateIp then m.setSrcAddr (rteCpuToBe32 publicIp) else m
    let m := if m.dstAddr = rteCpuToBe32 publicIp then m.setDstAddr (rteCpuToBe32 privateIp) else m
    let m := m.setHdrChecksum 0
    m.setHdrChecksum (E.ipv4Cksum m.data ipOff)

/-- An iteration of the loop of `lcore_main`. -/
def staticNatIteration (E : Env) (tx : TxQueue ι) (bufs : List (ι × Mbuf)) :
    List Mbuf × List (MbufOp ι) :=
  if bufs.length = 0 then ([], [])
  else (bufs.map fun x => simulateNat E x.2, [tx.send (bufs.map Prod.fst)])

end StaticNat

end DpdkBeginners.Forwarding
