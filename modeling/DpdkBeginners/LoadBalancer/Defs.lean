import DpdkBeginners.Rte.Env
import DpdkBeginners.Rte.Mbuf
import Mathlib.Data.Fin.VecNotation

/-!
# The load balancer of `Load_Balancer`

The state of `load_balancer.c` and its functions, one definition for each.

* `next_backend` is an index of `backends`, which the state carries along as a proof.
* A burst is rewritten packet by packet and offered to the transmit queue as a whole; what the queue does
  with it has no effect on the packets.

The counters that are only printed are left out.
-/

namespace DpdkBeginners.LoadBalancer

open DpdkBeginners.Rte

/-! ### Data -/

/-- `struct backend`. -/
structure Backend where
  ip : U32
  port : U16

abbrev nBackends : ℕ := 3

/-- The static variables of `load_balancer.c`. -/
structure Lb where
  backends : Fin nBackends → Backend
  nextBackend : U32
  backendHits : Fin nBackends → U64
  inRange : nextBackend.toNat < nBackends

/-- The initial value of `backends`. -/
def staticBackends : Fin nBackends → Backend :=
  ![⟨rteIpv4 192 168 0 101, 0⟩, ⟨rteIpv4 192 168 0 102, 0⟩, ⟨rteIpv4 192 168 0 103, 0⟩]

/-- The static variables when `main` calls `lcore_main`: the ports of the backends have been set. -/
def initLb : Lb where
  backends i := { staticBackends i with port := rteCpuToBe16 10000 }
  nextBackend := 0
  backendHits _ := 0
  inRange := by decide

/-! ### Packets -/

variable (E : Env)

/-- `(next_backend + 1) % n_backends`. -/
def advance (next : U32) : U32 := (next + 1) % BitVec.ofNat 32 nBackends

theorem advance_toNat {next : U32} (h : next.toNat < nBackends) :
    (advance next).toNat = (next.toNat + 1) % nBackends := by
  have hone : (1 : U32).toNat = 1 := rfl
  have hsize : (BitVec.ofNat 32 nBackends).toNat = nBackends := rfl
  unfold advance
  rw [BitVec.toNat_umod, BitVec.toNat_add, hone, hsize]
  unfold nBackends at *
  omega

/-- The backend that is next, as an index. -/
def Lb.selected (lb : Lb) : Fin nBackends := ⟨lb.nextBackend.toNat, lb.inRange⟩

/-- What a packet for a backend leaves behind in the static variables. -/
def Lb.count (lb : Lb) : Lb where
  backends := lb.backends
  nextBackend := advance lb.nextBackend
  backendHits := Function.update lb.backendHits lb.selected (lb.backendHits lb.selected + 1)
  inRange := by
    rw [advance_toNat lb.inRange]
    exact Nat.mod_lt _ (by decide)

/-- The rewrite of a TCP or UDP packet for the backend `bk`. -/
def rewriteFor (bk : Backend) (m : Mbuf) : Mbuf :=
  let m₁ := m.setDstAddr bk.ip
  let m₂ :=
    if m₁.nextProtoId = ipprotoTcp then
      let m' := (m₁.setDstPort bk.port).setTcpCksum 0
      m'.setTcpCksum (E.ipv4UdptcpCksum m'.data ipOff l4Off)
    else if m₁.nextProtoId = ipprotoUdp then
      let m' := (m₁.setDstPort bk.port).setDgramCksum 0
      m'.setDgramCksum (E.ipv4UdptcpCksum m'.data ipOff l4Off)
    else m₁
  let m₃ := m₂.setHdrChecksum 0
  m₃.setHdrChecksum (E.ipv4Cksum m₃.data ipOff)

/-- `rewrite_l4_packet`: the static variables and the packet after it, and its return value. -/
def rewriteL4Packet (lb : Lb) (m : Mbuf) : Lb × Mbuf × Int :=
  if ¬ m.IsIpv4 then (lb, m, -1)
  else if m.nextProtoId ≠ ipprotoTcp ∧ m.nextProtoId ≠ ipprotoUdp then (lb, m, -1)
  else (lb.count, rewriteFor E (lb.backends lb.selected) m, (lb.selected.val : Int))

/-! ### Runs -/

/-- The packets of one burst of `lcore_main`, one after the other. -/
def rewriteBurst (lb : Lb) : List Mbuf → Lb × List Mbuf
  | [] => (lb, [])
  | m :: pkts =>
    let (lb, m', _) := rewriteL4Packet E lb m
    let (lb, pkts') := rewriteBurst lb pkts
    (lb, m' :: pkts')

/-- The loop of `lcore_main`: the packets that it offers to the transmit queue, burst by burst. -/
def lcoreMain (lb : Lb) : List (List Mbuf) → Lb × List (List Mbuf)
  | [] => (lb, [])
  | pkts :: bursts =>
    let (lb, pkts') := rewriteBurst E lb pkts
    let (lb, bursts') := lcoreMain lb bursts
    (lb, pkts' :: bursts')

end DpdkBeginners.LoadBalancer
