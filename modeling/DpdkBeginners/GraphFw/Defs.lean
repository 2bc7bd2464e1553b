import DpdkBeginners.Lib.Compact
import DpdkBeginners.Lib.Run
import DpdkBeginners.Rte.Bytes
import DpdkBeginners.Rte.Graph

/-!
# The firewall graph of `dpdk-graph-fw`

`rx_node` receives a burst and passes it to `parser_node`, which passes it to `firewall_node` or to
`tx_node`, as the flag `firewall_enabled` says at that moment.  `firewall_node` frees the short packets
and passes the others to `tx_node`.

* A step is the processing of one node, or a command of the CLI; commands may come between any two nodes
  of a walk.
* A packet is anything with a `pkt_len`.
* `received`, `routed`, `handedToTx` and `freed` are the history of the run.  `routed` holds each burst
  that `parser_node` has processed, with the flag as it has read it.

What the nodes and the CLI print is left out.
-/

namespace DpdkBeginners.GraphFw

open DpdkBeginners.Rte DpdkBeginners.Lib

/-- The nodes that are reached by an edge. -/
inductive Node
  | parserNode
  | firewallNode
  | txNode
  deriving DecidableEq

/-- The size of the array of `rx_node`. -/
def burstSize : ℕ := 32

variable {α : Type*}

/-- The global variables, the pending streams of the walk and the history. -/
structure State (α : Type*) where
  firewallEnabled : Bool
  appRunning : Bool
  rxCount : U64
  parserCount : U64
  firewallCount : U64
  txCount : U64
  pending : Pending Node α
  received : List α
  routed : List (List α × Bool)
  handedToTx : List α
  freed : List α

/-- The state before the first walk. -/
def init : State α := ⟨false, true, 0, 0, 0, 0, [], [], [], [], []⟩

/-! ### The nodes -/

/-- `nb_objs`, as it is added to a counter. -/
def nbObjs (objs : List α) : U64 := BitVec.ofNat 64 objs.length

/-- `rx_node_process`, when `rte_eth_rx_burst` returns `pkts`. -/
def rxNodeProcess (s : State α) (pkts : List α) : State α :=
  let s := { s with rxCount := s.rxCount + nbObjs pkts, received := s.received ++ pkts }
  if pkts.length ≠ 0 then { s with pending := rteNodeEnqueue s.pending .parserNode pkts } else s

/-- `parser_node_process`. -/
def parserNodeProcess (s : State α) (objs : List α) : State α :=
  let next := if s.firewallEnabled then Node.firewallNode else Node.txNode
  { s with
    parserCount := s.parserCount + nbObjs objs
    pending := rteNodeEnqueue s.pending next objs
    routed := s.routed ++ [(objs, s.firewallEnabled)] }

/-- `tx_node_process`. -/
def txNodeProcess (s : State α) (objs : List α) : State α :=
  { s with txCount := s.txCount + nbObjs objs, handedToTx := s.handedToTx ++ objs }

section Process

variable (pktLen : α → U32)

/-- `m->pkt_len < 60`. -/
def isShort (m : α) : Bool := pktLen m < 60

/-- The body of the loop of `firewall_node_process`: a short packet is freed, any other is kept. -/
def firewallKeep (freed : List α) (m : α) : List α × Bool :=
  if isShort pktLen m then (freed ++ [m], false) else (freed, true)

/-- `firewall_node_process`.  The loop keeps packets in the array `objs` itself. -/
def firewallNodeProcess (s : State α) (objs : List α) : State α :=
  let s := { s with firewallCount := s.firewallCount + nbObjs objs }
  let (freed, objs, out) := compact (firewallKeep pktLen) s.freed objs
  let s := { s with freed := freed }
  if out ≠ 0 then { s with pending := rteNodeEnqueue s.pending .txNode (objs.take out) } else s

/-- The processing of a node. -/
def process (s : State α) (objs : List α) : Node → State α
  | .parserNode => parserNodeProcess s objs
  | .firewallNode => firewallNodeProcess pktLen s objs
  | .txNode => txNodeProcess s objs

/-! ### Runs -/

/-- A walk starts with `rx_node` and goes on with the first pending node; the CLI runs in a thread of its
own. -/
inductive Event (α : Type*)
  | rxNode (pkts : List α)
  | node
  | enableFirewall
  | disableFirewall
  | quit

/-- A walk starts when the one before has ended, while the application runs. -/
def Enabled (s : State α) : Event α → Prop
  | .rxNode pkts => s.pending = [] ∧ s.appRunning = true ∧ pkts.length ≤ burstSize
  | _ => True

/-- The state after an event. -/
def step (s : State α) : Event α → State α
  | .rxNode pkts => rxNodeProcess s pkts
  | .node =>
    match s.pending with
    | [] => s
    | (node, objs) :: rest => process pktLen { s with pending := rest } objs node
  | .enableFirewall => { s with firewallEnabled := true }
  | .disableFirewall => { s with firewallEnabled := false }
  | .quit => { s with appRunning := false }

/-- One step of the graph or of the CLI. -/
def Step (s : State α) (ev : Event α) (t : State α) : Prop := Enabled s ev ∧ step pktLen s ev = t

end Process

end DpdkBeginners.GraphFw
