import DpdkBeginners.GraphFw.Defs

/-!
# What the firewall lets through

A burst is decided upon once, when `parser_node` reads the flag; what the CLI does to the flag before or
after that does not concern it.  So the packets that reach `tx_node` are the bursts that `parser_node` has
routed, each one sifted if it was routed through `firewall_node`.

Within a walk at most one node has a pending stream, and the invariant counts what is in it as still to
come.
-/

namespace DpdkBeginners.GraphFw

open DpdkBeginners.Rte DpdkBeginners.Lib

variable {α : Type*} {pktLen : α → U32} {s t : State α} {ev : Event α} {evs : List (Event α)}

/-! ### What becomes of a burst -/

/-- The packets of a routed burst that reach `tx_node`. -/
def passed (pktLen : α → U32) (x : List α × Bool) : List α :=
  if x.2 then x.1.filter fun m => !isShort pktLen m else x.1

/-- The packets of a routed burst that `firewall_node` frees. -/
def removed (pktLen : α → U32) (x : List α × Bool) : List α :=
  if x.2 then x.1.filter fun m => isShort pktLen m else []

/-- The packets that have been routed through `firewall_node`. -/
def throughFirewall (routed : List (List α × Bool)) : List α :=
  (routed.filter Prod.snd).flatMap Prod.fst

@[simp] theorem nbObjs_nil : nbObjs ([] : List α) = 0#64 := rfl

theorem nbObjs_append (xs ys : List α) : nbObjs (xs ++ ys) = nbObjs xs + nbObjs ys := by
  rw [nbObjs, List.length_append, BitVec.ofNat_add]
  rfl

theorem nbObjs_passed_add_removed (routed : List (List α × Bool)) :
    nbObjs (routed.flatMap (passed pktLen)) + nbObjs (routed.flatMap (removed pktLen)) =
      nbObjs (routed.flatMap Prod.fst) := by
  have hone : ∀ x : List α × Bool,
      (passed pktLen x).length + (removed pktLen x).length = x.1.length := by
    intro x
    unfold passed removed
    by_cases hx : x.2 = true
    · rw [if_pos hx, if_pos hx, Nat.add_comm]
      exact List.length_eq_length_filter_add _ |>.symm
    · rw [if_neg hx, if_neg hx]
      rfl
  have hall : (routed.flatMap (passed pktLen)).length + (routed.flatMap (removed pktLen)).length =
      (routed.flatMap Prod.fst).length := by
    induction routed with
    | nil => rfl
    | cons x routed ih =>
      have hx := hone x
      simp only [List.flatMap_cons, List.length_append]
      omega
  rw [nbObjs, nbObjs, nbObjs, ← BitVec.ofNat_add, hall]

/-- The loop of `firewall_node_process` frees the short packets and keeps the others, in order. -/
theorem sift_firewallKeep (freed objs : List α) :
    sift (firewallKeep pktLen) freed objs =
      (freed ++ objs.filter fun m => isShort pktLen m,
        objs.filter fun m => !isShort pktLen m) := by
  induction objs generalizing freed with
  | nil => simp [sift]
  | cons m objs ih =>
    by_cases hm : isShort pktLen m = true
    · simp [sift, firewallKeep, hm, ih]
    · simp [sift, firewallKeep, hm, ih]

theorem firewallNodeProcess_eq (pktLen : α → U32) (s : State α) (objs : List α) :
    firewallNodeProcess pktLen s objs =
      { s with
        firewallCount := s.firewallCount + nbObjs objs
        freed := s.freed ++ objs.filter fun m => isShort pktLen m
        pending :=
          if objs.filter (fun m => !isShort pktLen m) = [] then s.pending
          else rteNodeEnqueue s.pending .txNode (objs.filter fun m => !isShort pktLen m) } := by
  have hstate := @compact_state _ _ (firewallKeep pktLen) s.freed objs
  have hfront := @compact_front _ _ (firewallKeep pktLen) s.freed objs
  have hout := @compact_out _ _ (firewallKeep pktLen) s.freed objs
  rw [sift_firewallKeep] at hstate hfront hout
  unfold firewallNodeProcess
  simp only [hstate, hfront]
  by_cases hnil : objs.filter (fun m => !isShort pktLen m) = []
  · rw [hnil, List.length_nil] at hout
    rw [if_neg (not_not.2 hout), if_pos hnil]
  · have hpos : (compact (firewallKeep pktLen) s.freed objs).2.2 ≠ 0 := by
      rw [hout]
      exact fun h => hnil (List.length_eq_zero_iff.1 h)
    rw [if_pos hpos, if_neg hnil]

/-! ### The invariant -/

/-- **The invariant.**  What is pending is still to be routed, handedToTx, freed or counted. -/
structure Inv (pktLen : α → U32) (s : State α) : Prop where
  single : s.pending.length ≤ 1
  received : s.routed.flatMap Prod.fst ++ s.pending.stream .parserNode = s.received
  handedToTx : s.handedToTx ++ s.pending.stream .txNode ++
    (s.pending.stream .firewallNode).filter (fun m => !isShort pktLen m) =
      s.routed.flatMap (passed pktLen)
  freed : s.freed ++ (s.pending.stream .firewallNode).filter (fun m => isShort pktLen m) =
    s.routed.flatMap (removed pktLen)
  rxCount : s.rxCount = nbObjs s.received
  parserCount : s.parserCount = nbObjs (s.routed.flatMap Prod.fst)
  firewallCount : s.firewallCount + nbObjs (s.pending.stream .firewallNode) =
    nbObjs (throughFirewall s.routed)
  txCount : s.txCount = nbObjs s.handedToTx

theorem inv_init : Inv pktLen init :=
  ⟨Nat.zero_le _, rfl, rfl, rfl, rfl, rfl, rfl, rfl⟩

/-! ### Steps -/

theorem inv_rxNodeProcess (hs : Inv pktLen s) (hnil : s.pending = []) (pkts : List α) :
    Inv pktLen (rxNodeProcess s pkts) := by
  have hreceived := hs.received
  have hhanded := hs.handedToTx
  have hfreed := hs.freed
  have hfirewall := hs.firewallCount
  simp only [hnil, stream_nil, List.filter_nil, List.append_nil] at hreceived hhanded hfreed hfirewall
  have hcount : s.rxCount + nbObjs pkts = nbObjs (s.received ++ pkts) := by
    rw [nbObjs_append, hs.rxCount]
  unfold rxNodeProcess
  by_cases hlen : pkts.length = 0
  · obtain rfl := List.length_eq_zero_iff.1 hlen
    simp only [List.length_nil, ne_eq, not_true_eq_false, if_false]
    exact { hs with
      received := by simp [hnil, hreceived]
      rxCount := hcount }
  · simp only [ne_eq, hlen, not_false_eq_true, if_true, hnil, rteNodeEnqueue]
    exact { hs with
      single := Nat.le_refl 1
      received := by simp [hreceived]
      handedToTx := by simp [hhanded]
      freed := by simp [hfreed]
      rxCount := hcount
      firewallCount := by simpa using hfirewall }

theorem inv_parserNodeProcess {objs : List α} (hs : Inv pktLen s)
    (hpend : s.pending = [(.parserNode, objs)]) :
    Inv pktLen (parserNodeProcess { s with pending := [] } objs) := by
  have hreceived := hs.received
  have hhanded := hs.handedToTx
  have hfreed := hs.freed
  have hfirewall := hs.firewallCount
  simp only [hpend, stream_single, if_true, reduceCtorEq, if_false, List.filter_nil,
    List.append_nil] at hreceived hhanded hfreed hfirewall
  rw [nbObjs_nil, BitVec.add_zero] at hfirewall
  have hcount : s.parserCount + nbObjs objs = nbObjs (s.routed.flatMap Prod.fst ++ objs) := by
    rw [nbObjs_append, hs.parserCount]
  unfold parserNodeProcess
  -- the flag is read here, and only here
  by_cases hflag : s.firewallEnabled = true
  · simp only [hflag, if_true, rteNodeEnqueue]
    exact { hs with
      single := Nat.le_refl 1
      received := by simpa using hreceived
      handedToTx := by simp [hhanded, passed]
      freed := by simp [hfreed, removed]
      parserCount := by simpa using hcount
      firewallCount := by simp [hfirewall, throughFirewall, nbObjs_append] }
  · rw [Bool.not_eq_true] at hflag
    simp only [hflag, Bool.false_eq_true, if_false, rteNodeEnqueue]
    exact { hs with
      single := Nat.le_refl 1
      received := by simpa using hreceived
      handedToTx := by simp [hhanded, passed]
      freed := by simp [hfreed, removed]
      parserCount := by simpa using hcount
      firewallCount := by simp [hfirewall, throughFirewall] }

theorem inv_firewallNodeProcess {objs : List α} (hs : Inv pktLen s)
    (hpend : s.pending = [(.firewallNode, objs)]) :
    Inv pktLen (firewallNodeProcess pktLen { s with pending := [] } objs) := by
  have hreceived := hs.received
  have hhanded := hs.handedToTx
  have hfreed := hs.freed
  have hfirewall := hs.firewallCount
  simp only [hpend, stream_single, if_true, reduceCtorEq, if_false, List.append_nil]
    at hreceived hhanded hfreed hfirewall
  rw [firewallNodeProcess_eq]
  by_cases hnil : objs.filter (fun m => !isShort pktLen m) = []
  · rw [hnil, List.append_nil] at hhanded
    simp only [if_pos hnil]
    exact { hs with
      single := Nat.zero_le _
      received := by simpa using hreceived
      handedToTx := by simpa using hhanded
      freed := by simpa using hfreed
      firewallCount := by simpa using hfirewall }
  · simp only [if_neg hnil, rteNodeEnqueue]
    exact { hs with
      single := Nat.le_refl 1
      received := by simpa using hreceived
      handedToTx := by simpa using hhanded
      freed := by simpa using hfreed
      firewallCount := by simpa using hfirewall }

theorem inv_txNodeProcess {objs : List α} (hs : Inv pktLen s)
    (hpend : s.pending = [(.txNode, objs)]) :
    Inv pktLen (txNodeProcess { s with pending := [] } objs) := by
  have hreceived := hs.received
  have hhanded := hs.handedToTx
  have hfreed := hs.freed
  have hfirewall := hs.firewallCount
  simp only [hpend, stream_single, if_true, reduceCtorEq, if_false, List.filter_nil, List.append_nil]
    at hreceived hhanded hfreed hfirewall
  have hcount : s.txCount + nbObjs objs = nbObjs (s.handedToTx ++ objs) := by
    rw [nbObjs_append, hs.txCount]
  exact { hs with
    single := Nat.zero_le _
    received := by simpa [txNodeProcess] using hreceived
    handedToTx := by simpa [txNodeProcess] using hhanded
    freed := by simpa [txNodeProcess] using hfreed
    firewallCount := by simpa [txNodeProcess] using hfirewall
    txCount := hcount }

theorem Inv.of_step (hs : Inv pktLen s) (h : Step pktLen s ev t) : Inv pktLen t := by
  obtain ⟨hen, rfl⟩ := h
  cases ev with
  | rxNode pkts => exact inv_rxNodeProcess hs hen.1 pkts
  | node =>
    cases hpend : s.pending with
    | nil => simpa only [step, hpend] using hs
    | cons x rest =>
      obtain ⟨node, objs⟩ := x
      have hrest : rest = [] := by
        have hle := hs.single
        rw [hpend, List.length_cons] at hle
        exact List.length_eq_zero_iff.1 (by omega)
      subst hrest
      simp only [step, hpend]
      cases node with
      | parserNode => exact inv_parserNodeProcess hs hpend
      | firewallNode => exact inv_firewallNodeProcess hs hpend
      | txNode => exact inv_txNodeProcess hs hpend
  | enableFirewall => exact { hs with }
  | disableFirewall => exact { hs with }
  | quit => exact { hs with }

theorem run_inv (h : Run (Step pktLen) init evs s) : Inv pktLen s :=
  h.invariant inv_init fun _ _ _ => Inv.of_step

/-- **The firewall.**  Whenever no walk is going on: every burst received has been routed; the packets
handed to `tx_node` are the routed bursts without the short packets of those that went through
`firewall_node`, and these have been freed; and the counters count the packets received, routed through
the firewall, and left. -/
theorem firewall_walks (h : Run (Step pktLen) init evs s) (hdone : s.pending = []) :
    s.received = s.routed.flatMap Prod.fst ∧
    s.handedToTx = s.routed.flatMap (passed pktLen) ∧
    s.freed = s.routed.flatMap (removed pktLen) ∧
    s.rxCount = s.parserCount ∧
    s.firewallCount = nbObjs (throughFirewall s.routed) ∧
    s.txCount = s.rxCount - nbObjs s.freed := by
  obtain ⟨-, hreceived, hhanded, hfreed, hrx, hparser, hfirewall, htx⟩ := run_inv h
  simp only [hdone, stream_nil, List.filter_nil, List.append_nil] at hreceived hhanded hfreed
  simp only [hdone, stream_nil] at hfirewall
  have hsum := @nbObjs_passed_add_removed _ pktLen s.routed
  rw [← hhanded, ← hfreed] at hsum
  refine ⟨hreceived.symm, hhanded, hfreed, ?_, ?_, ?_⟩
  · rw [hrx, hparser, hreceived]
  · rwa [nbObjs_nil, BitVec.add_zero] at hfirewall
  · rw [htx, hrx, ← hreceived, ← hsum]
    exact (BitVec.add_sub_cancel _ _).symm

/-- A walk with two packets of 42 and 60 bytes; the firewall is disabled when the burst has been routed
through it. -/
def toggled : List (Event U32) :=
  [.enableFirewall, .rxNode [42, 60], .node, .disableFirewall, .node, .node]

theorem firewall_walks_toggled :
    (toggled.foldl (step id) init).handedToTx = [60] ∧ (toggled.foldl (step id) init).freed = [42] ∧
      (toggled.foldl (step id) init).txCount =
        (toggled.foldl (step id) init).rxCount - nbObjs (toggled.foldl (step id) init).freed := by
  have hrun : Run (Step id) init toggled (toggled.foldl (step id) init) :=
    Run.cons_iff.2 ⟨_, ⟨trivial, rfl⟩,
      Run.cons_iff.2 ⟨_, ⟨⟨rfl, rfl, by decide⟩, rfl⟩,
        Run.cons_iff.2 ⟨_, ⟨trivial, rfl⟩,
          Run.cons_iff.2 ⟨_, ⟨trivial, rfl⟩,
            Run.cons_iff.2 ⟨_, ⟨trivial, rfl⟩, Run.single_iff.2 ⟨trivial, rfl⟩⟩⟩⟩⟩⟩
  have h := firewall_walks hrun rfl
  exact ⟨rfl, rfl, h.2.2.2.2.2⟩

end DpdkBeginners.GraphFw
