import DpdkBeginners.Rte.Graph
import DpdkBeginners.Rte.Mbuf
import DpdkBeginners.Rte.Mempool

/-!
# The graph of `graph/rx_drop_sample`

`rx_node` passes a burst to `ipv4_node`, which enqueues the packets one by one to `tx_node` or `drop_node`.
`tx_node` does not look at what `rte_eth_tx_burst` returns.

A walk ends; it offers the IPv4 packets as one burst, in the order of their arrival, and frees the others
(`walk_calls`).  So what leaks over a run of walks is what the queue refuses (`graph_spec`).

What the nodes print is left out, and so is `force_quit`, which only keeps further walks from starting.
-/

namespace DpdkBeginners.RxDropSample

open DpdkBeginners.Rte DpdkBeginners.Lib

variable {ι : Type*}

/-! ### The nodes -/

/-- The nodes that are reached by an edge. -/
inductive Node
  | ipv4Node
  | txNode
  | dropNode
  deriving DecidableEq

/-- What a walk receives: the mbufs, what they hold and the answers of the transmit queue. -/
structure Burst (ι : Type*) where
  pkts : List ι
  mtod : ι → Mbuf
  tx : TxQueue ι

/-- The pending streams of a walk, and the calls that it has made. -/
structure State (ι : Type*) where
  pending : Pending Node ι
  ops : List (MbufOp ι)

/-- `rx_node_process`. -/
def rxNodeProcess (pkts : List ι) : State ι where
  pending := if 0 < pkts.length then rteNodeEnqueue [] .ipv4Node pkts else []
  ops := []

/-- The edge that `ipv4_node_process` chooses for a packet. -/
def edge (mtod : ι → Mbuf) (m : ι) : Node := if (mtod m).IsIpv4 then .txNode else .dropNode

/-- `ipv4_node_process`. -/
def ipv4NodeProcess (mtod : ι → Mbuf) (s : State ι) (objs : List ι) : State ι :=
  { s with pending := objs.foldl (fun p m => rteNodeEnqueue p (edge mtod m) [m]) s.pending }

/-- `tx_node_process`. -/
def txNodeProcess (tx : TxQueue ι) (s : State ι) (objs : List ι) : State ι :=
  { s with ops := s.ops ++ [tx.send objs] }

/-- `drop_node_process`. -/
def dropNodeProcess (s : State ι) (objs : List ι) : State ι := { s with ops := s.ops ++ objs.map .free }

/-- The processing of a node. -/
def process (b : Burst ι) (s : State ι) (objs : List ι) : Node → State ι
  | .ipv4Node => ipv4NodeProcess b.mtod s objs
  | .txNode => txNodeProcess b.tx s objs
  | .dropNode => dropNodeProcess s objs

/-- A walk from the state `s` on, of `n` nodes at most. -/
def walkFrom (b : Burst ι) : ℕ → State ι → State ι
  | 0, s => s
  | n + 1, s =>
    match s.pending with
    | [] => s
    | (node, objs) :: pending => walkFrom b n (process b { s with pending := pending } objs node)

/-- `rte_graph_walk`.  No more than three nodes are pending in a walk. -/
def rteGraphWalk (b : Burst ι) : State ι := walkFrom b 3 (rxNodeProcess b.pkts)

/-! ### A walk -/

section Walk

variable {b : Burst ι} {s : State ι} {n : ℕ}

/-- The packets of a burst that are offered, those that are freed, and those that are refused. -/
def Burst.ipv4 (b : Burst ι) : List ι := b.pkts.filter fun m => (b.mtod m).IsIpv4
def Burst.others (b : Burst ι) : List ι := b.pkts.filter fun m => ¬ (b.mtod m).IsIpv4
def Burst.refused (b : Burst ι) : List ι := b.ipv4.drop (b.tx.burst b.ipv4)

/-- The calls that a pending stream of one of the last two nodes leads to. -/
def calls (tx : TxQueue ι) (x : Node × List ι) : List (MbufOp ι) :=
  match x.1 with
  | .ipv4Node => []
  | .txNode => [tx.send x.2]
  | .dropNode => x.2.map .free

theorem process_last {node : Node} (h : node ≠ .ipv4Node) (s : State ι) (objs : List ι) :
    process b s objs node = { s with ops := s.ops ++ calls b.tx (node, objs) } := by
  cases node with
  | ipv4Node => exact absurd rfl h
  | txNode => rfl
  | dropNode => rfl

theorem walkFrom_last (h : Node.ipv4Node ∉ s.pending.nodes) (hn : s.pending.length ≤ n) :
    walkFrom b n s = ⟨[], s.ops ++ s.pending.flatMap (calls b.tx)⟩ := by
  induction n generalizing s with
  | zero =>
    obtain ⟨pending, ops⟩ := s
    obtain rfl : pending = [] := List.length_eq_zero_iff.1 (Nat.le_zero.1 hn)
    simp [walkFrom]
  | succ n ih =>
    obtain ⟨pending, ops⟩ := s
    cases pending with
    | nil => simp [walkFrom]
    | cons x pending =>
      obtain ⟨node, objs⟩ := x
      have hpending : Node.ipv4Node ∉ Pending.nodes pending := fun hmem => h (List.mem_cons_of_mem _ hmem)
      have hnode : node ≠ .ipv4Node := by
        rintro rfl
        exact h (List.mem_cons_self ..)
      have hlen : pending.length ≤ n := Nat.le_of_succ_le_succ hn
      show walkFrom b n (process b ⟨pending, ops⟩ objs node) = _
      rw [process_last hnode, ih hpending hlen, List.flatMap_cons, ← List.append_assoc]

/-- The streams that `ipv4_node` starts. -/
def sorted (b : Burst ι) : Pending Node ι :=
  b.pkts.foldl (fun p m => rteNodeEnqueue p (edge b.mtod m) [m]) []

theorem nodup_nil : (Pending.nodes ([] : Pending Node ι)).Nodup := List.nodup_nil

theorem nodup_sorted (b : Burst ι) : (sorted b).nodes.Nodup := nodup_foldl_enqueue _ nodup_nil _

theorem stream_sorted (b : Burst ι) (node : Node) :
    (sorted b).stream node = b.pkts.filter fun m => edge b.mtod m = node :=
  stream_foldl_enqueue _ nodup_nil _ _

theorem edge_eq_tx_iff {mtod : ι → Mbuf} {m : ι} : edge mtod m = .txNode ↔ (mtod m).IsIpv4 := by
  unfold edge
  split_ifs with h
  · exact iff_of_true rfl h
  · exact iff_of_false (by simp) h

theorem edge_eq_drop_iff {mtod : ι → Mbuf} {m : ι} : edge mtod m = .dropNode ↔ ¬ (mtod m).IsIpv4 := by
  unfold edge
  split_ifs with h
  · exact iff_of_false (by simp) (not_not.2 h)
  · exact iff_of_true rfl h

theorem stream_tx (b : Burst ι) : (sorted b).stream .txNode = b.ipv4 := by
  simp only [stream_sorted, edge_eq_tx_iff, Burst.ipv4]

theorem stream_drop (b : Burst ι) : (sorted b).stream .dropNode = b.others := by
  simp only [stream_sorted, edge_eq_drop_iff, Burst.others]

theorem mem_sorted {node : Node} (h : node ∈ (sorted b).nodes) : node = .txNode ∨ node = .dropNode := by
  rcases mem_nodes_foldl_enqueue _ h with hnil | ⟨m, -, rfl⟩
  · cases hnil
  · unfold edge
    split_ifs
    · exact .inl rfl
    · exact .inr rfl

theorem length_sorted (b : Burst ι) : (sorted b).length ≤ 2 := by
  have hsub : (sorted b).nodes ⊆ [.txNode, .dropNode] := fun node hnode => by
    rcases mem_sorted hnode with rfl | rfl <;> simp
  have hle := (List.subperm_of_subset (nodup_sorted b) hsub).length_le
  rwa [Pending.nodes, List.length_map] at hle

/-- **A walk ends**, with the calls for the streams that `ipv4_node` has started. -/
theorem rteGraphWalk_eq (b : Burst ι) : rteGraphWalk b = ⟨[], (sorted b).flatMap (calls b.tx)⟩ := by
  unfold rteGraphWalk rxNodeProcess
  by_cases hpos : 0 < b.pkts.length
  · have hnot : Node.ipv4Node ∉ (sorted b).nodes := fun hmem => by
      rcases mem_sorted hmem with h | h <;> cases h
    rw [if_pos hpos]
    exact walkFrom_last (s := ⟨sorted b, []⟩) hnot (length_sorted b)
  · have hnil : b.pkts = [] := List.length_eq_zero_iff.1 (by omega)
    rw [if_neg hpos, sorted, hnil]
    rfl

theorem flatMap_walk {f : MbufOp ι → List ι} (node : Node) {g : List ι → List ι} (hg : g [] = [])
    (h : ∀ x : Node × List ι, (calls b.tx x).flatMap f = if x.1 = node then g x.2 else []) :
    (rteGraphWalk b).ops.flatMap f = g ((sorted b).stream node) := by
  rw [rteGraphWalk_eq, List.flatMap_assoc, ← flatMap_stream (nodup_sorted b) node hg]
  exact List.flatMap_congr fun x _ => h x

/-- **What a walk does** with its burst. -/
theorem walk_calls (b : Burst ι) :
    (rteGraphWalk b).pending = [] ∧ (rteGraphWalk b).ops.flatMap MbufOp.offered = b.ipv4 ∧
      (rteGraphWalk b).ops.flatMap MbufOp.freed = b.others ∧
      (rteGraphWalk b).ops.flatMap MbufOp.refused = b.refused := by
  refine ⟨by rw [rteGraphWalk_eq], ?_, ?_, ?_⟩
  · rw [flatMap_walk (g := id) .txNode rfl, stream_tx, id]
    rintro ⟨node, objs⟩
    cases node with
    | ipv4Node => rfl
    | txNode => exact List.append_nil _
    | dropNode => exact offered_frees _
  · rw [flatMap_walk (g := id) .dropNode rfl, stream_drop, id]
    rintro ⟨node, objs⟩
    cases node with
    | ipv4Node => rfl
    | txNode => rfl
    | dropNode => exact freed_frees _
  · rw [flatMap_walk (g := fun objs => objs.drop (b.tx.burst objs)) .txNode (List.drop_nil ..), stream_tx]
    · rfl
    rintro ⟨node, objs⟩
    cases node with
    | ipv4Node => rfl
    | txNode => exact List.append_nil _
    | dropNode => exact refused_frees _

end Walk

/-! ### Runs -/

section Runs

theorem walk_perm (b : Burst ι) :
    ((rteGraphWalk b).ops.flatMap MbufOp.offered ++ (rteGraphWalk b).ops.flatMap MbufOp.freed).Perm b.pkts := by
  obtain ⟨-, hoffered, hfreed, -⟩ := walk_calls b
  rw [hoffered, hfreed, Burst.ipv4, Burst.others]
  simpa using List.filter_append_perm (fun m => decide (b.mtod m).IsIpv4) b.pkts

/-- The loop of `main`. -/
def graph : Loop (Burst ι) ι where
  received := Burst.pkts
  ops b := (rteGraphWalk b).ops
  gives b := given_le (walk_perm b)

variable [DecidableEq ι]

/-- **The graph** offers the IPv4 packets of a burst to the transmit queue, in the order of their arrival, and frees the
others.  What the queue refuses is missing for the rest of the run, and nothing else is. -/
theorem graph_spec :
    (∀ b : Burst ι, (rteGraphWalk b).pending = [] ∧ (rteGraphWalk b).ops.flatMap MbufOp.offered = b.ipv4 ∧
      (rteGraphWalk b).ops.flatMap MbufOp.freed = b.others) ∧
    graph.Drains fun b : Burst ι => b.refused.length := by
  refine ⟨fun b => ?_, Loop.drains_of_perm walk_perm fun b => ?_⟩
  · obtain ⟨hdone, hoffered, hfreed, -⟩ := walk_calls b
    exact ⟨hdone, hoffered, hfreed⟩
  · exact congrArg List.length (walk_calls b).2.2.2

end Runs

/-- An IPv4 packet and one that is not, which the queue refuses. -/
def mixedBurst : Burst ℕ :=
  ⟨[0, 1], fun m => if m = 0 then l4Base ipprotoUdp else ⟨fun _ => 0, 60⟩, takesHalf⟩

theorem graph_spec_mixedBurst (b : Burst ℕ) (hen : graph.Enabled ⟨{1}, 0, {0}⟩ (.iteration b)) :
    b.pkts.length + 1 ≤ 2 := by
  have hrun : Run graph.Step (rtePktmbufPoolCreate {0, 1}) [.iteration mixedBurst] ⟨{1}, 0, {0}⟩ :=
    Run.single_iff.2 ⟨by decide, by decide⟩
  exact (graph_spec.2 _ _ _ hrun).2 b hen

end DpdkBeginners.RxDropSample
