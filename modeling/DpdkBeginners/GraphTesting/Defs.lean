import DpdkBeginners.Lib.Run
import DpdkBeginners.Rte.Bytes
import DpdkBeginners.Rte.Graph

/-!
# Two pipelines that are compared, `graph/testing/main.c`

The same three operations are applied to an array of packets, once by a plain loop and once by the nodes of
a graph, in bursts.

* A step is the processing of one node, as in `GraphPipeline`; a walk starts with the burst that `main` has
  enqueued from `start_node`, and with `start_node` itself, which has no objects.
* The packets are the entries of a list of any length (in `main`, `NUM_PKTS`), and may be any pointers.

The measurement of the cycles is left out; `rte_pktmbuf_alloc` is taken to succeed, as the program does.
-/

namespace DpdkBeginners.GraphTesting

open DpdkBeginners.Rte DpdkBeginners.Lib

/-- `BURST`. -/
def burst : ℕ := 32

variable {ι : Type*}

/-- What `rte_pktmbuf_mtod` points to, for each packet. -/
abbrev Memory (ι : Type*) := ι → Bytes

section Operations

variable [DecidableEq ι]

/-- `data[k] ^= v`. -/
def xorByte (k : ℕ) (v : U8) (mem : Memory ι) (m : ι) : Memory ι :=
  fun m' i => if m' = m ∧ i = k then mem m' i ^^^ v else mem m' i

/-- `parse`. -/
def parse (mem : Memory ι) (m : ι) : Memory ι := xorByte 0 1 mem m

/-- `classify`. -/
def classify (mem : Memory ι) (m : ι) : Memory ι := xorByte 1 2 mem m

/-- `forward`. -/
def forward (mem : Memory ι) (m : ι) : Memory ι := xorByte 2 3 mem m

/-- `run_normal_pipeline`. -/
def runNormalPipeline (pkts : List ι) (mem : Memory ι) : Memory ι :=
  pkts.foldl (fun mem m => forward (classify (parse mem m) m) m) mem

end Operations

/-! ### The graph -/

/-- The nodes that are reached by an edge. -/
inductive Node
  | parseNode
  | classifyNode
  | forwardNode
  deriving DecidableEq

/-- The packets and the pending streams. -/
structure State (ι : Type*) where
  mem : Memory ι
  pending : Pending Node ι

/-- `start_node_process`. -/
def startNodeProcess (p : Pending Node ι) (objs : List ι) : Pending Node ι :=
  rteNodeEnqueue p .parseNode objs

section Nodes

variable [DecidableEq ι]

/-- The processing of a node: its operation on each object, and then the objects go to the next node. -/
def process (s : State ι) (objs : List ι) : Node → State ι
  | .parseNode => ⟨objs.foldl parse s.mem, rteNodeEnqueue s.pending .classifyNode objs⟩
  | .classifyNode => ⟨objs.foldl classify s.mem, rteNodeEnqueue s.pending .forwardNode objs⟩
  | .forwardNode => ⟨objs.foldl forward s.mem, s.pending⟩

/-- A walk starts, or goes on with a pending node. -/
inductive Event (ι : Type*)
  | walk (pkts : List ι)
  | node (n : Node)

/-- A walk starts when the one before has ended, with a whole burst. -/
def Enabled (s : State ι) : Event ι → Prop
  | .walk pkts => s.pending = [] ∧ pkts.length = burst
  | .node n => n ∈ s.pending.nodes

/-- The state after an event. -/
def step (s : State ι) : Event ι → State ι
  | .walk pkts => { s with pending := startNodeProcess (rteNodeEnqueue s.pending .parseNode pkts) [] }
  | .node n => process { s with pending := s.pending.remove n } (s.pending.stream n) n

/-- One step of the graph. -/
def Step (s : State ι) (ev : Event ι) (t : State ι) : Prop := Enabled s ev ∧ step s ev = t

end Nodes

/-- The packets that an event enqueues. -/
def Event.pkts : Event ι → List ι
  | .walk pkts => pkts
  | .node _ => []

/-! ### The loop of `main` -/

/-- The bursts that the second loop of `main` enqueues from the index `i` on; `none` is a burst that is read past
the end of the array. -/
def bursts (pkts : List ι) (i : ℕ) : Option (List (List ι)) :=
  if i < pkts.length then
    if i + burst ≤ pkts.length then
      (bursts pkts (i + burst)).map fun bs => (pkts.drop i).take burst :: bs
    else none
  else some []
  termination_by pkts.length - i
  decreasing_by
    unfold burst at *
    omega

end DpdkBeginners.GraphTesting
