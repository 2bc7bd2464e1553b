import DpdkBeginners.Lib.Run
import DpdkBeginners.Rte.Graph
import DpdkBeginners.Rte.Mbuf
import DpdkBeginners.Rte.TxBurst

/-!
# The graph of `graph/pipeline`

`rx_node` receives a burst and passes it to `l2_node`, which sorts it by EtherType.  `ipv4_node` and
`ipv6_node` pass what they get to `tx_node`, and `drop_node` frees what it gets.

* A step is the processing of one node.  Of the graph only this is used: an object that is enqueued is
  delivered once, in order, within the walk.  So any of the pending nodes may be the next one.
* The arrays of `l2_node` are the lists of what has been stored in them; a store past the end of one is
  `none`.
* `received`, `txOps` and `dropped` are the history of the walk, and begin anew with each walk; the next
  one may receive the same mbufs again.

What the nodes print is left out, and so is `quit`, which only keeps further walks from starting.
-/

namespace DpdkBeginners.GraphPipeline

open DpdkBeginners.Rte DpdkBeginners.Lib

/-- The nodes that are reached by an edge. -/
inductive Node
  | l2Node
  | ipv4Node
  | ipv6Node
  | txNode
  | dropNode
  deriving DecidableEq

/-- `BURST`. -/
def burst : ℕ := 32

variable {ι : Type*}

/-- The contents of the mbufs, the pending streams of the walk and the history. -/
structure State (ι : Type*) where
  mtod : ι → Mbuf
  pending : Pending Node ι
  received : List ι
  txOps : List (MbufOp ι)
  dropped : List ι

/-- The state before the first walk. -/
def init (mtod : ι → Mbuf) : State ι := ⟨mtod, [], [], [], []⟩

/-! ### The nodes -/

/-- `if (n) rte_node_enqueue(...)`. -/
def enqueueAny (p : Pending Node ι) (node : Node) (objs : List ι) : Pending Node ι :=
  if objs.length ≠ 0 then rteNodeEnqueue p node objs else p

/-- `rx_node_process`, when `rte_eth_rx_burst` returns `pkts` and leaves the mbufs as in `mtod`. -/
def rxNodeProcess (s : State ι) (pkts : List ι) (mtod : ι → Mbuf) : State ι :=
  ⟨mtod, enqueueAny s.pending .l2Node pkts, pkts, [], []⟩

/-- The arrays of `l2_node_process`. -/
structure L2Arrays (ι : Type*) where
  ipv4 : List ι
  ipv6 : List ι
  drop : List ι

/-- `arr[n++] = m`, in an array of `BURST` entries. -/
def store (arr : List ι) (m : ι) : Option (List ι) :=
  if arr.length < burst then some (arr ++ [m]) else none

/-- `rte_be_to_cpu_16(eth->ether_type)`. -/
def etherType (mtod : ι → Mbuf) (m : ι) : U16 := rteBeToCpu16 (mtod m).etherType

/-- The body of the loop of `l2_node_process`. -/
def l2Sort (mtod : ι → Mbuf) (a : L2Arrays ι) (m : ι) : Option (L2Arrays ι) :=
  if etherType mtod m = rteEtherTypeIpv4 then (store a.ipv4 m).map fun arr => { a with ipv4 := arr }
  else if etherType mtod m = rteEtherTypeIpv6 then (store a.ipv6 m).map fun arr => { a with ipv6 := arr }
  else (store a.drop m).map fun arr => { a with drop := arr }

/-- `l2_node_process`. -/
def l2NodeProcess (s : State ι) (objs : List ι) : Option (State ι) := do
  let a ← objs.foldlM (l2Sort s.mtod) ⟨[], [], []⟩
  let pending := enqueueAny s.pending .ipv4Node a.ipv4
  let pending := enqueueAny pending .ipv6Node a.ipv6
  let pending := enqueueAny pending .dropNode a.drop
  some { s with pending := pending }

/-- `ipv4_node_process`. -/
def ipv4NodeProcess (s : State ι) (objs : List ι) : State ι :=
  { s with pending := rteNodeEnqueue s.pending .txNode objs }

/-- `ipv6_node_process`. -/
def ipv6NodeProcess (s : State ι) (objs : List ι) : State ι :=
  { s with pending := rteNodeEnqueue s.pending .txNode objs }

/-- `tx_node_process`. -/
def txNodeProcess (s : State ι) (tx : TxQueue ι) (objs : List ι) : State ι :=
  { s with txOps := s.txOps ++ sendOrFree tx objs }

/-- `drop_node_process`. -/
def dropNodeProcess (s : State ι) (objs : List ι) : State ι := { s with dropped := s.dropped ++ objs }

/-- The processing of a node; `tx` answers for the transmit queue. -/
def process (s : State ι) (tx : TxQueue ι) (objs : List ι) : Node → Option (State ι)
  | .l2Node => l2NodeProcess s objs
  | .ipv4Node => some (ipv4NodeProcess s objs)
  | .ipv6Node => some (ipv6NodeProcess s objs)
  | .txNode => some (txNodeProcess s tx objs)
  | .dropNode => some (dropNodeProcess s objs)

/-! ### Runs -/

/-- A walk starts with `rx_node` and goes on with a pending node. -/
inductive Event (ι : Type*)
  | rxNode (pkts : List ι) (mtod : ι → Mbuf)
  | node (n : Node) (tx : TxQueue ι)

/-- A walk starts when the one before has ended; a burst has at most `BURST` mbufs, all different. -/
def Enabled (s : State ι) : Event ι → Prop
  | .rxNode pkts _ => s.pending = [] ∧ pkts.length ≤ burst ∧ pkts.Nodup
  | .node n _ => n ∈ s.pending.nodes

instance [DecidableEq ι] (s : State ι) : DecidablePred (Enabled s) := fun
  | .rxNode _ _ => inferInstanceAs (Decidable (_ ∧ _ ∧ _))
  | .node _ _ => inferInstanceAs (Decidable (_ ∈ _))

/-- The state once a node has been taken to be processed. -/
def State.take (s : State ι) (n : Node) : State ι := { s with pending := s.pending.remove n }

/-- The state after an event. -/
def step (s : State ι) : Event ι → Option (State ι)
  | .rxNode pkts mtod => some (rxNodeProcess s pkts mtod)
  | .node n tx => process (s.take n) tx (s.pending.stream n) n

/-- One step of the graph. -/
def Step (s : State ι) (ev : Event ι) (t : State ι) : Prop := Enabled s ev ∧ step s ev = some t

end DpdkBeginners.GraphPipeline
