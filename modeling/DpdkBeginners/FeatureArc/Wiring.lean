import DpdkBeginners.FeatureArc.Defs
import DpdkBeginners.Lib.Links

/-!
# The links of the arc

A rebuild links the start, the enabled features and the end, in this order (`RepeatArc.Wired.nextOf_rebuild`),
and what it does not link it leaves alone.  In a run the end never gets a link (`RepeatArc.Wired`).  Features
may be repeated here.
-/

namespace DpdkBeginners.FeatureArc

open DpdkBeginners.Lib
open Function (update update_self update_of_ne)

variable {s t : ArcState} {nodes : List Node} {fs : List Feature} {a b prev : String}
  {A : RepeatArc} {ev : Event} {evs : List Event}

/-! ### Links of the nodes -/

theorem foldl_nextOf (acc : Option String) :
    nodes.foldl (fun next n => if n.name = a then n.next else next) acc =
      if a ∈ nodes.map Node.name then nextOf nodes a else acc := by
  induction nodes generalizing acc with
  | nil => rfl
  | cons n nodes ih =>
    have hcons : nextOf (n :: nodes) a =
        if a ∈ nodes.map Node.name then nextOf nodes a else if n.name = a then n.next else none :=
      ih _
    rw [List.foldl_cons, ih, hcons]
    by_cases ha : a ∈ nodes.map Node.name
    · simp [ha]
    · by_cases hn : n.name = a
      · simp [hn]
      · simp [ha, hn, Ne.symm hn]

theorem nextOf_cons (n : Node) :
    nextOf (n :: nodes) a =
      if a ∈ nodes.map Node.name then nextOf nodes a else if n.name = a then n.next else none := by
  rw [nextOf, List.foldl_cons, foldl_nextOf]

@[simp] theorem map_name_setNext (a b : String) (nodes : List Node) :
    (setNext a b nodes).map Node.name = nodes.map Node.name := by
  induction nodes with
  | nil => rfl
  | cons n nodes ih =>
    unfold setNext
    split_ifs with hn
    · rfl
    · rw [List.map_cons, ih, List.map_cons]

/-- **`set_next`**, when the names of the nodes are different. -/
theorem nextOf_setNext (hnd : (nodes.map Node.name).Nodup) (ha : a ∈ nodes.map Node.name) :
    nextOf (setNext a b nodes) = update (nextOf nodes) a (some b) := by
  induction nodes with
  | nil => simp at ha
  | cons n nodes ih =>
    obtain ⟨hn, hnd⟩ := List.nodup_cons.1 hnd
    funext x
    unfold setNext
    by_cases hna : n.name = a
    · subst hna
      rw [if_pos rfl, nextOf_cons]
      by_cases hx : x = n.name
      · subst hx
        rw [if_neg hn, if_pos rfl, update_self]
      · rw [update_of_ne hx, nextOf_cons, if_neg (Ne.symm hx), if_neg (Ne.symm hx)]
    · have ha' : a ∈ nodes.map Node.name := by
        rcases List.mem_cons.1 ha with h | h
        · exact absurd h.symm hna
        · exact h
      rw [if_neg hna, nextOf_cons, map_name_setNext, ih hnd ha']
      by_cases hx : x = a
      · subst hx
        rw [if_pos ha', update_self, update_self]
      · rw [update_of_ne hx, update_of_ne hx, nextOf_cons]

/-! ### Rebuilding -/

@[simp] theorem map_name_rebuildLoop (fs : List Feature) (prev : String) (nodes : List Node) :
    (rebuildLoop nodes prev fs).1.map Node.name = nodes.map Node.name := by
  induction fs generalizing nodes prev with
  | nil => rfl
  | cons f fs ih =>
    unfold rebuildLoop
    split_ifs
    · rw [ih, map_name_setNext]
    · rw [ih]

/-- The loop of `feature_arc_rebuild` and the link after it, as links along a list. -/
theorem nextOf_rebuildLoop (hnd : (nodes.map Node.name).Nodup)
    (hmem : ∀ x ∈ prev :: enabledNames fs, x ∈ nodes.map Node.name) :
    nextOf (setNext (rebuildLoop nodes prev fs).2 b (rebuildLoop nodes prev fs).1) =
      relink (nextOf nodes) (prev :: enabledNames fs ++ [b]) := by
  induction fs generalizing nodes prev with
  | nil => exact nextOf_setNext hnd (hmem prev (by simp))
  | cons f fs ih =>
    unfold rebuildLoop
    by_cases hf : f.enabled = true
    · have hnames : enabledNames (f :: fs) = f.name :: enabledNames fs := by
        simp [enabledNames, hf]
      rw [hnames] at hmem
      have hprev : prev ∈ nodes.map Node.name := hmem prev (by simp)
      rw [if_pos hf, hnames, ih (by simpa using hnd), nextOf_setNext hnd hprev]
      · rfl
      · intro x hx
        rw [map_name_setNext]
        exact hmem x (List.mem_cons_of_mem _ hx)
    · have hnames : enabledNames (f :: fs) = enabledNames fs := by
        simp [enabledNames, hf]
      rw [hnames] at hmem
      rw [if_neg hf, hnames]
      exact ih hnd hmem

/-! ### Walking -/

theorem dumpLoop_of_follows {l : List String} {fuel : ℕ} (h : Follows (nextOf nodes) a l)
    (hfuel : l.length ≤ fuel) : dumpLoop nodes fuel a = some l := by
  induction h generalizing fuel with
  | stop hn =>
    obtain ⟨fuel, rfl⟩ := Nat.exists_eq_add_of_le' hfuel
    simp [dumpLoop, hn]
  | link hn _ ih =>
    rw [List.length_cons] at hfuel
    obtain ⟨fuel, rfl⟩ := Nat.exists_eq_add_of_le' (Nat.one_le_of_lt hfuel)
    have hrest := ih (Nat.le_of_succ_le_succ hfuel)
    simp only [dumpLoop, hn, hrest, Option.map_some]

/-! ### Setting up -/

theorem addNode_eq (h : addNode s a = some t) : t = { s with nodes := s.nodes ++ [⟨a, none⟩] } := by
  unfold addNode at h
  split_ifs at h
  exact (Option.some.inj h).symm

theorem featureRegister_eq (h : featureRegister s a = some t) :
    t = { s with features := s.features ++ [⟨a, false⟩] } := by
  unfold featureRegister at h
  split_ifs at h
  exact (Option.some.inj h).symm

theorem foldlM_addNode {names : List String} (h : names.foldlM addNode s = some t) :
    t.nodes = s.nodes ++ names.map fun x => ⟨x, none⟩ := by
  induction names generalizing s with
  | nil =>
    obtain rfl := Option.some.inj h
    simp
  | cons x names ih =>
    obtain ⟨u, hu, h⟩ := Option.bind_eq_some_iff.1 h
    rw [ih h, addNode_eq hu]
    simp

theorem foldlM_featureRegister {names : List String} (h : names.foldlM featureRegister s = some t) :
    t = { s with features := s.features ++ names.map fun x => ⟨x, false⟩ } := by
  induction names generalizing s with
  | nil =>
    obtain rfl := Option.some.inj h
    simp
  | cons x names ih =>
    obtain ⟨u, hu, h⟩ := Option.bind_eq_some_iff.1 h
    rw [ih h, featureRegister_eq hu]
    simp

theorem nextOf_map_none (names : List String) (a : String) :
    nextOf (names.map fun x => ⟨x, none⟩) a = none := by
  induction names with
  | nil => rfl
  | cons x names ih =>
    rw [List.map_cons, nextOf_cons, ih]
    simp

/-! ### The invariant of a run -/

namespace RepeatArc

/-- The names are the ones of the arc, and its end has no link. -/
structure Wired (A : RepeatArc) (s : ArcState) : Prop where
  names : s.nodes.map Node.name = A.names
  startNode : s.startNode = A.startNode
  endNode : s.endNode = A.endNode
  features : s.features.map Feature.name = A.features
  end_free : nextOf s.nodes A.endNode = none

theorem wired_setup (h : A.setup = some s) : A.Wired s := by
  obtain ⟨u, hu, h⟩ := Option.bind_eq_some_iff.1 h
  have hnodes : u.nodes = A.names.map fun x => ⟨x, none⟩ := by simpa using foldlM_addNode hu
  rw [foldlM_featureRegister h]
  refine ⟨?_, rfl, rfl, ?_, ?_⟩
  · simp [featureArcInit, hnodes, Function.comp_def]
  · simp [featureArcInit, Function.comp_def]
  · simp [featureArcInit, hnodes, nextOf_map_none]

theorem Wired.sublist (hs : A.Wired s) : (enabledNames s.features).Sublist A.features := by
  rw [← hs.features]
  exact List.filter_sublist.map Feature.name

theorem Wired.end_notMem (hs : A.Wired s) : A.endNode ∉ A.startNode :: enabledNames s.features :=
  fun h => A.end_notMem ((hs.sublist.cons_cons _).subset h)

/-- **A rebuild** sets the links along the start, the enabled features and the end. -/
theorem Wired.nextOf_rebuild (hs : A.Wired s) :
    nextOf (featureArcRebuild s).nodes =
      relink (nextOf s.nodes) (A.startNode :: enabledNames s.features ++ [A.endNode]) := by
  have hmem : ∀ x ∈ A.startNode :: enabledNames s.features, x ∈ s.nodes.map Node.name := by
    intro x hx
    rw [hs.names]
    exact A.subset x ((hs.sublist.cons_cons _).subset hx)
  have hnd : (s.nodes.map Node.name).Nodup := by
    rw [hs.names]
    exact A.nodup_names
  unfold featureArcRebuild
  rw [hs.startNode, hs.endNode]
  exact nextOf_rebuildLoop hnd hmem

theorem Wired.of_step (hs : A.Wired s) (h : Step s ev t) : A.Wired t := by
  obtain rfl : step s ev = t := h
  have hset : ∀ name b, A.Wired (setEnabled s name b) := by
    intro name b
    refine { hs with features := ?_ }
    rw [← hs.features, setEnabled, List.map_map]
    apply List.map_congr_left
    intro f _
    rw [Function.comp_apply]
    split <;> rfl
  cases ev with
  | enable name => exact hset name true
  | disable name => exact hset name false
  | rebuild =>
    refine { hs with names := ?_, end_free := ?_ }
    · show (featureArcRebuild s).nodes.map Node.name = A.names
      unfold featureArcRebuild
      rw [map_name_setNext, map_name_rebuildLoop, hs.names]
    · show nextOf (featureArcRebuild s).nodes A.endNode = none
      rw [hs.nextOf_rebuild]
      exact (relink_last hs.end_notMem).trans hs.end_free

theorem run_wired {s₀ : ArcState} (h₀ : A.setup = some s₀) (h : Run Step s₀ evs s) : A.Wired s :=
  h.invariant (wired_setup h₀) fun _ _ _ ha hst => ha.of_step hst

end RepeatArc

end DpdkBeginners.FeatureArc
