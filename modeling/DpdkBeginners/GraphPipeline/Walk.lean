import DpdkBeginners.GraphPipeline.Defs

/-!
# What becomes of a burst

A packet of the walk is in the stream of some node until it has been offered to the transmit queue or
freed.  The invariant says so for each EtherType, the streams in an order that `l2_node` and the nodes
after it keep: those of `ipv4_node` and `ipv6_node` may change places, since they have no EtherType in
common.

`l2_node` gets the burst of one walk, and so its arrays are large enough.
-/

namespace DpdkBeginners.GraphPipeline

open DpdkBeginners.Rte DpdkBeginners.Lib

variable {ι : Type*} {mtod : ι → Mbuf} {s t : State ι} {evs : List (Event ι)}

/-! ### EtherTypes -/

/-- The EtherTypes that `l2_node` passes on. -/
def IsIp (v : U16) : Prop := v = rteEtherTypeIpv4 ∨ v = rteEtherTypeIpv6

instance : DecidablePred IsIp := fun _ => inferInstanceAs (Decidable (_ ∨ _))

/-- The packets of one EtherType. -/
def ofType (mtod : ι → Mbuf) (v : U16) (l : List ι) : List ι := l.filter fun m => etherType mtod m = v

/-- The packets that are neither IPv4 nor IPv6. -/
def others (mtod : ι → Mbuf) (l : List ι) : List ι := l.filter fun m => ¬ IsIp (etherType mtod m)

theorem ipv4_ne_ipv6 : rteEtherTypeIpv4 ≠ rteEtherTypeIpv6 := by decide

@[simp] theorem ofType_append (v : U16) (l l' : List ι) :
    ofType mtod v (l ++ l') = ofType mtod v l ++ ofType mtod v l' := List.filter_append ..

@[simp] theorem ofType_nil (v : U16) : ofType mtod v [] = [] := rfl

@[simp] theorem ofType_ofType (v : U16) (l : List ι) : ofType mtod v (ofType mtod v l) = ofType mtod v l :=
  List.filter_filter.trans (by simp [ofType])

theorem mem_ofType {v : U16} {l : List ι} {m : ι} :
    m ∈ ofType mtod v l ↔ m ∈ l ∧ etherType mtod m = v := by
  rw [ofType, List.mem_filter, decide_eq_true_iff]

theorem ofType_eq_nil {v w : U16} {l : List ι} (hvw : v ≠ w) (hl : ∀ m ∈ l, etherType mtod m = w) :
    ofType mtod v l = [] := by
  rw [List.eq_nil_iff_forall_not_mem]
  intro m hm
  obtain ⟨hm, hv⟩ := mem_ofType.1 hm
  exact hvw (hv.symm.trans (hl m hm))

theorem count_ofType [DecidableEq ι] (m : ι) (l : List ι) :
    (ofType mtod (etherType mtod m) l).count m = l.count m :=
  List.count_filter (by simp)

@[simp] theorem others_append (l l' : List ι) : others mtod (l ++ l') = others mtod l ++ others mtod l' :=
  List.filter_append ..

@[simp] theorem others_nil : others mtod [] = [] := rfl

theorem mem_others {l : List ι} {m : ι} : m ∈ others mtod l ↔ m ∈ l ∧ ¬ IsIp (etherType mtod m) := by
  rw [others, List.mem_filter, decide_eq_true_iff]

/-! ### The nodes -/

theorem stream_enqueueAny {p : Pending Node ι} (hp : p.nodes.Nodup) (node : Node) (objs : List ι) (k : Node) :
    (enqueueAny p node objs).stream k = p.stream k ++ if node = k then objs else [] := by
  unfold enqueueAny
  split_ifs with hlen hk
  · rw [stream_enqueue hp, if_pos hk]
  · rw [stream_enqueue hp, if_neg hk]
  · rw [List.length_eq_zero_iff.1 (not_not.1 hlen), List.append_nil]
  · rw [List.append_nil]

theorem nodup_enqueueAny {p : Pending Node ι} (hp : p.nodes.Nodup) (node : Node) (objs : List ι) :
    (enqueueAny p node objs).nodes.Nodup := by
  unfold enqueueAny
  split_ifs
  · exact nodup_enqueue hp node objs
  · exact hp

theorem store_of_lt {arr : List ι} (h : arr.length < burst) (m : ι) : store arr m = some (arr ++ [m]) :=
  if_pos h

/-- How many packets the arrays hold together. -/
def L2Arrays.size (a : L2Arrays ι) : ℕ := a.ipv4.length + a.ipv6.length + a.drop.length

/-- **The loop** of `l2_node_process` sorts the packets.  It stores each one once, so there is room for it while
the arrays together and the packets to come are at most a burst. -/
theorem foldlM_l2Sort (mtod : ι → Mbuf) (objs : List ι) (a : L2Arrays ι)
    (hroom : a.size + objs.length ≤ burst) :
    objs.foldlM (l2Sort mtod) a =
      some ⟨a.ipv4 ++ ofType mtod rteEtherTypeIpv4 objs, a.ipv6 ++ ofType mtod rteEtherTypeIpv6 objs,
        a.drop ++ others mtod objs⟩ := by
  induction objs generalizing a with
  | nil => simp
  | cons m objs ih =>
    rw [List.length_cons] at hroom
    rw [List.foldlM_cons]
    unfold l2Sort
    unfold L2Arrays.size at hroom ih
    by_cases h4 : etherType mtod m = rteEtherTypeIpv4
    · rw [if_pos h4, store_of_lt (by omega)]
      refine (ih _ ?_).trans ?_
      · simp only [List.length_append, List.length_singleton]
        omega
      · simp [ofType, others, IsIp, h4, ipv4_ne_ipv6]
    · rw [if_neg h4]
      by_cases h6 : etherType mtod m = rteEtherTypeIpv6
      · rw [if_pos h6, store_of_lt (by omega)]
        refine (ih _ ?_).trans ?_
        · simp only [List.length_append, List.length_singleton]
          omega
        · simp [ofType, others, IsIp, h6, ipv4_ne_ipv6.symm]
      · rw [if_neg h6, store_of_lt (by omega)]
        refine (ih _ ?_).trans ?_
        · simp only [List.length_append, List.length_singleton]
          omega
        · simp [ofType, others, IsIp, h4, h6]

theorem l2NodeProcess_eq {objs : List ι} (hs : s.pending.nodes.Nodup) (hlen : objs.length ≤ burst) :
    ∃ p, l2NodeProcess s objs = some { s with pending := p } ∧ p.nodes.Nodup ∧
      ∀ k, p.stream k = s.pending.stream k ++ match k with
        | .ipv4Node => ofType s.mtod rteEtherTypeIpv4 objs
        | .ipv6Node => ofType s.mtod rteEtherTypeIpv6 objs
        | .dropNode => others s.mtod objs
        | _ => [] := by
  have hsort := foldlM_l2Sort s.mtod objs ⟨[], [], []⟩ (by simpa [L2Arrays.size])
  simp only [List.nil_append] at hsort
  have h4 := nodup_enqueueAny hs .ipv4Node (ofType s.mtod rteEtherTypeIpv4 objs)
  have h6 := nodup_enqueueAny h4 .ipv6Node (ofType s.mtod rteEtherTypeIpv6 objs)
  refine ⟨_, ?_, nodup_enqueueAny h6 .dropNode (others s.mtod objs), fun k => ?_⟩
  · unfold l2NodeProcess
    rw [hsort]
    rfl
  · rw [stream_enqueueAny h6, stream_enqueueAny h4, stream_enqueueAny hs]
    cases k <;> simp

/-! ### The invariant -/

/-- The packets offered to the transmit queue. -/
def State.offered (s : State ι) : List ι := s.txOps.flatMap MbufOp.offered

/-- The packets that have been offered, and behind them the streams that lead to `tx_node`, the nearest one first. -/
def State.inOrder (s : State ι) : List ι :=
  s.offered ++ s.pending.stream .txNode ++ s.pending.stream .ipv4Node ++ s.pending.stream .ipv6Node ++
    s.pending.stream .l2Node

/-- **The invariant.**  Each packet received has been offered or dropped, or it is in a stream. -/
structure Inv (s : State ι) : Prop where
  nodup : s.pending.nodes.Nodup
  short : (s.pending.stream .l2Node).length ≤ burst
  distinct : s.received.Nodup
  ipv4 : ∀ m ∈ s.pending.stream .ipv4Node, etherType s.mtod m = rteEtherTypeIpv4
  ipv6 : ∀ m ∈ s.pending.stream .ipv6Node, etherType s.mtod m = rteEtherTypeIpv6
  isIp : ∀ m ∈ s.offered ++ s.pending.stream .txNode, IsIp (etherType s.mtod m)
  order : ∀ v, IsIp v → ofType s.mtod v s.inOrder = ofType s.mtod v s.received
  dropped : s.dropped ++ s.pending.stream .dropNode ++ others s.mtod (s.pending.stream .l2Node) =
    others s.mtod s.received
  kept : (s.txOps.flatMap MbufOp.accepted ++ s.txOps.flatMap MbufOp.freed).Perm s.offered

theorem inv_init (mtod : ι → Mbuf) : Inv (init mtod) :=
  ⟨List.nodup_nil, Nat.zero_le _, List.nodup_nil, by simp [init], by simp [init],
    by simp [init, State.offered], fun _ _ => rfl, rfl, .refl _⟩

theorem inv_rxNodeProcess {pkts : List ι} (hnil : s.pending = []) (hlen : pkts.length ≤ burst)
    (hnodup : pkts.Nodup) (mtod : ι → Mbuf) : Inv (rxNodeProcess s pkts mtod) := by
  have hpending : s.pending.nodes.Nodup := by
    rw [hnil]
    exact List.nodup_nil
  have hstream : ∀ k, (enqueueAny s.pending .l2Node pkts).stream k = if Node.l2Node = k then pkts else [] := by
    intro k
    rw [stream_enqueueAny hpending, hnil, stream_nil, List.nil_append]
  unfold rxNodeProcess
  constructor
  case nodup => exact nodup_enqueueAny hpending _ _
  case short => simpa [hstream] using hlen
  case distinct => exact hnodup
  case order => intro v _; simp [State.inOrder, State.offered, hstream]
  case kept => exact .refl _
  all_goals simp [hstream, State.offered]

/-! ### Steps -/

@[simp] theorem take_mtod (s : State ι) (n : Node) : (s.take n).mtod = s.mtod := rfl

@[simp] theorem take_received (s : State ι) (n : Node) : (s.take n).received = s.received := rfl

@[simp] theorem take_txOps (s : State ι) (n : Node) : (s.take n).txOps = s.txOps := rfl

@[simp] theorem take_dropped (s : State ι) (n : Node) : (s.take n).dropped = s.dropped := rfl

@[simp] theorem take_offered (s : State ι) (n : Node) : (s.take n).offered = s.offered := rfl

theorem stream_take (s : State ι) (n k : Node) :
    (s.take n).pending.stream k = if n = k then [] else s.pending.stream k := stream_remove ..

theorem Inv.nodup_take (hs : Inv s) (n : Node) : (s.take n).pending.nodes.Nodup := nodup_remove hs.nodup n

theorem inv_l2NodeProcess (hs : Inv s) :
    ∃ t, l2NodeProcess (s.take .l2Node) (s.pending.stream .l2Node) = some t ∧ Inv t := by
  obtain ⟨p, hp, hnodup, hstream⟩ := l2NodeProcess_eq (hs.nodup_take .l2Node) hs.short
  simp only [stream_take, take_mtod] at hstream
  have h4 := ofType_eq_nil ipv4_ne_ipv6.symm hs.ipv4
  have h6 := ofType_eq_nil ipv4_ne_ipv6 hs.ipv6
  have h4' : ofType s.mtod rteEtherTypeIpv6 (ofType s.mtod rteEtherTypeIpv4 (s.pending.stream .l2Node)) = [] :=
    ofType_eq_nil ipv4_ne_ipv6.symm fun m hm => (mem_ofType.1 hm).2
  have h6' : ofType s.mtod rteEtherTypeIpv4 (ofType s.mtod rteEtherTypeIpv6 (s.pending.stream .l2Node)) = [] :=
    ofType_eq_nil ipv4_ne_ipv6 fun m hm => (mem_ofType.1 hm).2
  refine ⟨_, hp, ?_⟩
  constructor
  case nodup => exact hnodup
  case short => simp [hstream]
  case distinct => exact hs.distinct
  case ipv4 =>
    intro m hm
    simp only [hstream, reduceCtorEq, if_false, List.mem_append, mem_ofType] at hm
    rcases hm with hm | hm
    · exact hs.ipv4 m hm
    · exact hm.2
  case ipv6 =>
    intro m hm
    simp only [hstream, reduceCtorEq, if_false, List.mem_append, mem_ofType] at hm
    rcases hm with hm | hm
    · exact hs.ipv6 m hm
    · exact hm.2
  case isIp => simpa [hstream, State.offered] using hs.isIp
  case order =>
    intro v hv
    have horder := hs.order v hv
    rcases hv with rfl | rfl
    · simpa [State.inOrder, State.offered, hstream, h6, h6'] using horder
    · simpa [State.inOrder, State.offered, hstream, h4, h4'] using horder
  case dropped => simpa [hstream] using hs.dropped
  case kept => exact hs.kept

/-- `ipv4_node` and `ipv6_node` put their packets behind those that `tx_node` has. -/
theorem inv_enqueue_tx (hs : Inv s) {n : Node} (hn : n = .ipv4Node ∨ n = .ipv6Node) :
    Inv { s.take n with pending := rteNodeEnqueue (s.take n).pending .txNode (s.pending.stream n) } := by
  have hstream := stream_enqueue (hs.nodup_take n) .txNode (s.pending.stream n)
  simp only [stream_take] at hstream
  have h4 := ofType_eq_nil ipv4_ne_ipv6.symm hs.ipv4
  have h6 := ofType_eq_nil ipv4_ne_ipv6 hs.ipv6
  constructor
  case nodup => exact nodup_enqueue (hs.nodup_take n) _ _
  case short => rcases hn with rfl | rfl <;> simpa [hstream] using hs.short
  case distinct => exact hs.distinct
  case ipv4 =>
    rcases hn with rfl | rfl
    · simp [hstream]
    · simpa [hstream] using hs.ipv4
  case ipv6 =>
    rcases hn with rfl | rfl
    · simpa [hstream] using hs.ipv6
    · simp [hstream]
  case isIp =>
    intro m hm
    have htx : m ∈ s.pending.stream n → IsIp (etherType s.mtod m) := by
      intro hm
      rcases hn with rfl | rfl
      · exact Or.inl (hs.ipv4 m hm)
      · exact Or.inr (hs.ipv6 m hm)
    rcases hn with rfl | rfl
    all_goals
      simp only [hstream, reduceCtorEq, if_false, if_true, ← List.append_assoc] at hm
      rcases List.mem_append.1 hm with hm | hm
      · exact hs.isIp m hm
      · exact htx hm
  case order =>
    intro v hv
    have horder := hs.order v hv
    rcases hn with rfl | rfl
    · simpa [State.inOrder, State.offered, hstream] using horder
    · -- the IPv6 packets overtake the IPv4 packets that are still with `ipv4_node`
      rcases hv with rfl | rfl
      · simpa [State.inOrder, State.offered, hstream, h6] using horder
      · simpa [State.inOrder, State.offered, hstream, h4] using horder
  case dropped => rcases hn with rfl | rfl <;> simpa [hstream] using hs.dropped
  case kept => exact hs.kept

section TxAndDrop

variable (tx : TxQueue ι) (objs : List ι)

@[simp] theorem txNodeProcess_mtod : (txNodeProcess s tx objs).mtod = s.mtod := rfl

@[simp] theorem txNodeProcess_pending : (txNodeProcess s tx objs).pending = s.pending := rfl

@[simp] theorem txNodeProcess_received : (txNodeProcess s tx objs).received = s.received := rfl

@[simp] theorem txNodeProcess_dropped : (txNodeProcess s tx objs).dropped = s.dropped := rfl

@[simp] theorem txNodeProcess_offered : (txNodeProcess s tx objs).offered = s.offered ++ objs := by
  rw [State.offered, txNodeProcess, List.flatMap_append, offered_sendOrFree]
  rfl

@[simp] theorem dropNodeProcess_mtod : (dropNodeProcess s objs).mtod = s.mtod := rfl

@[simp] theorem dropNodeProcess_pending : (dropNodeProcess s objs).pending = s.pending := rfl

@[simp] theorem dropNodeProcess_received : (dropNodeProcess s objs).received = s.received := rfl

@[simp] theorem dropNodeProcess_dropped : (dropNodeProcess s objs).dropped = s.dropped ++ objs := rfl

@[simp] theorem dropNodeProcess_offered : (dropNodeProcess s objs).offered = s.offered := rfl

end TxAndDrop

theorem inv_txNodeProcess (hs : Inv s) (tx : TxQueue ι) :
    Inv (txNodeProcess (s.take .txNode) tx (s.pending.stream .txNode)) := by
  have hstream := stream_take s .txNode
  constructor
  case nodup => exact hs.nodup_take _
  case short => simpa [hstream] using hs.short
  case distinct => exact hs.distinct
  case ipv4 => simpa [hstream] using hs.ipv4
  case ipv6 => simpa [hstream] using hs.ipv6
  case isIp => simpa [hstream] using hs.isIp
  case order =>
    intro v hv
    simpa [State.inOrder, hstream] using hs.order v hv
  case dropped => simpa [hstream] using hs.dropped
  case kept =>
    rw [txNodeProcess_offered, txNodeProcess, List.flatMap_append, List.flatMap_append,
      accepted_sendOrFree, freed_sendOrFree]
    have hburst := List.take_append_drop (tx.burst (s.pending.stream .txNode)) (s.pending.stream .txNode)
    refine (append_append_perm ..).trans ?_
    rw [hburst]
    exact hs.kept.append_right _

theorem inv_dropNodeProcess (hs : Inv s) :
    Inv (dropNodeProcess (s.take .dropNode) (s.pending.stream .dropNode)) := by
  have hstream := stream_take s .dropNode
  constructor
  case nodup => exact hs.nodup_take _
  case short => simpa [hstream] using hs.short
  case distinct => exact hs.distinct
  case ipv4 => simpa [hstream] using hs.ipv4
  case ipv6 => simpa [hstream] using hs.ipv6
  case isIp => simpa [hstream] using hs.isIp
  case order =>
    intro v hv
    simpa [State.inOrder, hstream] using hs.order v hv
  case dropped => simpa [hstream] using hs.dropped
  case kept => exact hs.kept

/-- **A node** does not fail, and keeps the invariant. -/
theorem inv_process (hs : Inv s) (tx : TxQueue ι) (n : Node) :
    ∃ t, process (s.take n) tx (s.pending.stream n) n = some t ∧ Inv t := by
  cases n with
  | l2Node => exact inv_l2NodeProcess hs
  | ipv4Node => exact ⟨_, rfl, inv_enqueue_tx hs (Or.inl rfl)⟩
  | ipv6Node => exact ⟨_, rfl, inv_enqueue_tx hs (Or.inr rfl)⟩
  | txNode => exact ⟨_, rfl, inv_txNodeProcess hs tx⟩
  | dropNode => exact ⟨_, rfl, inv_dropNodeProcess hs⟩

/-- **No step fails**, and each one keeps the invariant. -/
theorem inv_step {ev : Event ι} (hs : Inv s) (hen : Enabled s ev) : ∃ t, step s ev = some t ∧ Inv t := by
  cases ev with
  | rxNode pkts mtod => exact ⟨_, rfl, inv_rxNodeProcess hen.1 hen.2.1 hen.2.2 mtod⟩
  | node n tx => exact inv_process hs tx n

theorem run_safe (h : Run Step (init mtod) evs s) : Inv s ∧ ∀ ev, Enabled s ev → step s ev ≠ none :=
  h.no_failure (inv_init mtod) fun _ _ => inv_step

/-! ### A walk ends -/

/-- At most so many nodes are processed once the node has a stream. -/
def work : Node → ℕ
  | .l2Node => 6
  | .ipv4Node => 2
  | .ipv6Node => 2
  | .txNode => 1
  | .dropNode => 1

theorem weight_enqueueAny (p : Pending Node ι) (node : Node) (objs : List ι) :
    (enqueueAny p node objs).weight work ≤ p.weight work + work node := by
  unfold enqueueAny
  split_ifs
  · exact weight_enqueue work p node objs
  · exact Nat.le_add_right _ _

theorem weight_process {tx : TxQueue ι} {objs : List ι} {n : Node} (h : process s tx objs n = some t) :
    t.pending.weight work < s.pending.weight work + work n := by
  cases n with
  | l2Node =>
    obtain ⟨a, -, ht⟩ := Option.bind_eq_some_iff.1 h
    obtain rfl := Option.some.inj ht
    have h4 := weight_enqueueAny s.pending .ipv4Node a.ipv4
    have h6 := weight_enqueueAny (enqueueAny s.pending .ipv4Node a.ipv4) .ipv6Node a.ipv6
    have hd := weight_enqueueAny (enqueueAny (enqueueAny s.pending .ipv4Node a.ipv4) .ipv6Node a.ipv6)
      .dropNode a.drop
    simp only [work] at *
    omega
  | ipv4Node =>
    obtain rfl := Option.some.inj h
    exact Nat.lt_succ_of_le (weight_enqueue work s.pending .txNode objs)
  | ipv6Node =>
    obtain rfl := Option.some.inj h
    exact Nat.lt_succ_of_le (weight_enqueue work s.pending .txNode objs)
  | txNode =>
    obtain rfl := Option.some.inj h
    exact Nat.lt_succ_self _
  | dropNode =>
    obtain rfl := Option.some.inj h
    exact Nat.lt_succ_self _

theorem weight_node {n : Node} {tx : TxQueue ι} (h : Step s (.node n tx) t) :
    t.pending.weight work < s.pending.weight work := by
  have hprocess := weight_process h.2
  have hremove := weight_remove work h.1
  exact Nat.lt_of_lt_of_le hprocess hremove

theorem length_nodes {nodes : List (Node × TxQueue ι)}
    (h : Run Step s (nodes.map fun x => .node x.1 x.2) t) :
    nodes.length + t.pending.weight work ≤ s.pending.weight work := by
  induction nodes using List.reverseRecOn generalizing t with
  | nil =>
    obtain rfl := Run.nil_iff.1 h
    exact Nat.le_of_eq (Nat.zero_add _)
  | append_singleton nodes x ih =>
    rw [List.map_append, List.map_singleton, Run.snoc_iff] at h
    obtain ⟨u, hu, hstep⟩ := h
    have hnode := weight_node hstep
    have hih := ih hu
    rw [List.length_append, List.length_singleton]
    omega

theorem weight_le (h : Run Step (init mtod) evs s) : s.pending.weight work ≤ 6 := by
  refine h.invariant (I := fun s => s.pending.weight work ≤ 6) (Nat.zero_le _) fun a ev b ha hstep => ?_
  cases ev with
  | rxNode pkts mtod =>
    obtain ⟨⟨hnil, -⟩, hb⟩ := hstep
    obtain rfl := Option.some.inj hb
    have hle := weight_enqueueAny a.pending .l2Node pkts
    rw [hnil] at hle
    rw [rxNodeProcess, hnil]
    exact hle
  | node n tx => exact Nat.le_trans (Nat.le_of_lt (weight_node hstep)) ha

/-! ### What a walk has done -/

theorem Inv.offered_eq (hs : Inv s) (hdone : s.pending = []) (v : U16) :
    ofType s.mtod v s.offered = if IsIp v then ofType s.mtod v s.received else [] := by
  split_ifs with hv
  · have horder := hs.order v hv
    simpa only [State.inOrder, hdone, stream_nil, List.append_nil] using horder
  · rw [List.eq_nil_iff_forall_not_mem]
    intro m hm
    obtain ⟨hmem, rfl⟩ := mem_ofType.1 hm
    exact hv (hs.isIp m (List.mem_append_left _ hmem))

theorem Inv.dropped_eq (hs : Inv s) (hdone : s.pending = []) : s.dropped = others s.mtod s.received := by
  have hdropped := hs.dropped
  simpa only [hdone, stream_nil, others_nil, List.append_nil] using hdropped

theorem Inv.ownedOnce [DecidableEq ι] (hs : Inv s) (hdone : s.pending = []) :
    OwnedOnce s.received (s.txOps ++ s.dropped.map MbufOp.free) := by
  intro m hm
  have hone : s.received.count m = 1 := List.count_eq_one_of_mem hs.distinct hm
  have hkept := hs.kept.count_eq m
  have hoffered := congrArg (List.count m) (hs.offered_eq hdone (etherType s.mtod m))
  rw [List.count_append] at hkept
  rw [List.flatMap_append, List.flatMap_append, accepted_frees, freed_frees, List.append_nil,
    List.count_append, ← Nat.add_assoc, hkept]
  rw [count_ofType] at hoffered
  by_cases hip : IsIp (etherType s.mtod m)
  · have hdropped : m ∉ s.dropped := by
      rw [hs.dropped_eq hdone]
      exact fun h => (mem_others.1 h).2 hip
    rw [if_pos hip, count_ofType] at hoffered
    rw [hoffered, hone, List.count_eq_zero_of_not_mem hdropped]
  · have hdropped : s.dropped.count m = s.received.count m := by
      rw [hs.dropped_eq hdone]
      exact List.count_filter (by simpa using hip)
    rw [if_neg hip, List.count_nil] at hoffered
    rw [hoffered, hdropped, hone]

/-- **A walk conserves the burst.**  No node ever stores past the end of an array, and after six nodes at
most the walk has ended.  By then each packet received has been accepted or freed, once; `drop_node` has freed
those that are neither IPv4 nor IPv6; and the others have been offered, those of one EtherType in the order
in which they were received. -/
theorem walk_conserves [DecidableEq ι] (h : Run Step (init mtod) evs s) :
    (∀ ev, Enabled s ev → step s ev ≠ none) ∧
    (∀ (nodes : List (Node × TxQueue ι)) t, Run Step s (nodes.map fun x => .node x.1 x.2) t →
      nodes.length ≤ 6) ∧
    (s.pending = [] →
      OwnedOnce s.received (s.txOps ++ s.dropped.map MbufOp.free) ∧
      s.dropped = others s.mtod s.received ∧
      ∀ v, ofType s.mtod v s.offered = if IsIp v then ofType s.mtod v s.received else []) := by
  obtain ⟨hs, hsafe⟩ := run_safe h
  refine ⟨hsafe, fun nodes t hnodes => ?_, fun hdone => ?_⟩
  · have hlength := length_nodes hnodes
    have hweight := weight_le h
    omega
  · exact ⟨hs.ownedOnce hdone, hs.dropped_eq hdone, hs.offered_eq hdone⟩

/-- The packets 0 to 3 are IPv6, ARP, IPv4 and IPv6. -/
def mixed (m : ℕ) : Mbuf :=
  ⟨store16 (fun _ => 0) 12 (rteCpuToBe16 ([0x86dd, 0x0806, 0x0800, 0x86dd].getD m 0)), 60⟩

/-- A queue that takes one mbuf of each burst. -/
def takesOne : TxQueue ℕ := ⟨fun bufs => min 1 bufs.length, fun _ => Nat.min_le_right _ _⟩

/-- A walk with these packets, in which `ipv6_node` comes before `ipv4_node`. -/
def mixedWalk : List (Event ℕ) :=
  .rxNode [0, 1, 2, 3] mixed ::
    [Node.l2Node, .ipv6Node, .ipv4Node, .dropNode, .txNode].map fun n => .node n takesOne

theorem walk_conserves_mixed :
    ∃ s, Run Step (init mixed) mixedWalk s ∧ s.offered = [0, 3, 2] ∧ s.dropped = [1] ∧
      OwnedOnce s.received (s.txOps ++ s.dropped.map MbufOp.free) := by
  have hrun : Run Step (init mixed) mixedWalk
      ⟨mixed, [], [0, 1, 2, 3], [.tx [0, 3, 2] 1, .free 3, .free 2], [1]⟩ :=
    Run.cons_iff.2 ⟨_, ⟨⟨rfl, by decide, by decide⟩, rfl⟩,
      Run.cons_iff.2 ⟨_, ⟨by decide, rfl⟩,
        Run.cons_iff.2 ⟨_, ⟨by decide, rfl⟩,
          Run.cons_iff.2 ⟨_, ⟨by decide, rfl⟩,
            Run.cons_iff.2 ⟨_, ⟨by decide, rfl⟩, Run.single_iff.2 ⟨by decide, rfl⟩⟩⟩⟩⟩⟩
  exact ⟨_, hrun, rfl, rfl, ((walk_conserves hrun).2.2 rfl).1⟩

end DpdkBeginners.GraphPipeline
