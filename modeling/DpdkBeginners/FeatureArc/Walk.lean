import DpdkBeginners.FeatureArc.Wiring

/-!
# What a walk of the arc visits

A rebuild links the start, the enabled features and the end, in this order (`Wired.nextOf_rebuild`).  They
are different, and the end has no link, so the walk after a rebuild is exactly these nodes, whatever links
earlier rebuilds have left in the others (`walk_after_rebuild`).
-/

namespace DpdkBeginners.FeatureArc

open DpdkBeginners.Lib

variable {s t : ArcState} {A : Arc} {ev : Event} {evs : List Event}

/-! ### The invariant of a run -/

/-- The names are the ones of the arc, and its end has no link. -/
structure Wired (A : Arc) (s : ArcState) : Prop where
  names : s.nodes.map Node.name = A.names
  startNode : s.startNode = A.startNode
  endNode : s.endNode = A.endNode
  features : s.features.map Feature.name = A.features
  end_free : nextOf s.nodes A.endNode = none

theorem wired_iff : Wired A s ↔ A.toRepeatArc.Wired s :=
  ⟨fun ⟨h₁, h₂, h₃, h₄, h₅⟩ => ⟨h₁, h₂, h₃, h₄, h₅⟩, fun ⟨h₁, h₂, h₃, h₄, h₅⟩ => ⟨h₁, h₂, h₃, h₄, h₅⟩⟩

theorem run_wired {s₀ : ArcState} (h₀ : A.setup = some s₀) (h : Run Step s₀ evs s) : Wired A s :=
  wired_iff.2 (RepeatArc.run_wired h₀ h)

/-- What the walk after a rebuild is to visit. -/
def visited (A : Arc) (fs : List Feature) : List String :=
  A.startNode :: enabledNames fs ++ [A.endNode]

theorem Wired.sublist (hs : Wired A s) :
    (visited A s.features).Sublist (A.startNode :: A.features ++ [A.endNode]) :=
  ((wired_iff.1 hs).sublist.cons_cons A.startNode).append (List.Sublist.refl _)

/-- **A rebuild** sets the links along what the walk is to visit. -/
theorem Wired.nextOf_rebuild (hs : Wired A s) :
    nextOf (featureArcRebuild s).nodes = relink (nextOf s.nodes) (visited A s.features) :=
  (wired_iff.1 hs).nextOf_rebuild

theorem Step.nodes_eq (h : Step s ev t) (hev : ev ≠ .rebuild) :
    t.nodes = s.nodes ∧ t.startNode = s.startNode := by
  obtain rfl : step s ev = t := h
  cases ev with
  | enable name => exact ⟨rfl, rfl⟩
  | disable name => exact ⟨rfl, rfl⟩
  | rebuild => exact absurd rfl hev

theorem run_nodes (h : Run Step s evs t) (hev : Event.rebuild ∉ evs) :
    t.nodes = s.nodes ∧ t.startNode = s.startNode := by
  have h' := h.restrict (Q := fun ev => ev ≠ .rebuild) fun ev hmem heq => hev (heq ▸ hmem)
  refine h'.invariant (I := fun a => a.nodes = s.nodes ∧ a.startNode = s.startNode) ⟨rfl, rfl⟩ ?_
  rintro a ev b ⟨hn, hst⟩ hstep
  obtain ⟨hn', hst'⟩ := hstep.1.nodes_eq hstep.2
  exact ⟨hn'.trans hn, hst'.trans hst⟩

/-! ### The walk -/

/-- **The walk after a rebuild.**  Whatever calls came before, the walk visits exactly the start, the
features that were enabled at the rebuild, in the order in which they were registered, and the end, and
stops there; and it does so until the next rebuild. -/
theorem walk_after_rebuild {s₀ : ArcState} {pre post : List Event} (h₀ : A.setup = some s₀)
    (h : Run Step s₀ pre s) (hpost : Run Step s (.rebuild :: post) t) (hno : Event.rebuild ∉ post)
    (fuel : ℕ) (hfuel : (enabledNames s.features).length + 2 ≤ fuel) :
    s.features.map Feature.name = A.features ∧
      dumpPipeline t fuel = some (A.startNode :: enabledNames s.features ++ [A.endNode]) := by
  have hs := run_wired h₀ h
  refine ⟨hs.features, ?_⟩
  obtain ⟨u, hu, hpost⟩ := Run.cons_iff.1 hpost
  obtain rfl : featureArcRebuild s = u := hu
  obtain ⟨hnodes, hstart⟩ := run_nodes hpost hno
  have hnd : (visited A s.features).Nodup := A.nodup.sublist hs.sublist
  have hlast : nextOf s.nodes ((visited A s.features).getLast (by simp [visited])) = none := by
    simpa [visited] using hs.end_free
  have hwalk : Follows (nextOf t.nodes) A.startNode (visited A s.features) := by
    rw [hnodes, hs.nextOf_rebuild]
    exact follows_relink hnd hlast
  unfold dumpPipeline
  rw [hstart, show (featureArcRebuild s).startNode = A.startNode from hs.startNode]
  have hlen : (visited A s.features).length = (enabledNames s.features).length + 2 := by
    simp [visited]
  exact dumpLoop_of_follows hwalk (hlen ▸ hfuel)

/-- The state of `main` when the arc is set up. -/
def mainState : ArcState where
  nodes := [⟨"L3", none⟩, ⟨"Firewall", none⟩, ⟨"NAT", none⟩, ⟨"QoS", none⟩, ⟨"L4", none⟩]
  startNode := "L3"
  endNode := "L4"
  features := [⟨"Firewall", false⟩, ⟨"NAT", false⟩, ⟨"QoS", false⟩]

/-- The third and the fourth case of `main`: the links of the third are still in the nodes of the
firewall and the NAT when the fourth is built, and then the NAT is enabled without a rebuild. -/
theorem walk_after_rebuild_main :
    dumpPipeline ([.enable "Firewall", .enable "NAT", .rebuild, .disable "Firewall",
      .disable "NAT", .enable "QoS", .rebuild, .enable "NAT"].foldl step mainState) 3 =
        some ["L3", "QoS", "L4"] :=
  (walk_after_rebuild (show mainArc.setup = some mainState by decide) (Run.foldl step mainState
    [.enable "Firewall", .enable "NAT", .rebuild, .disable "Firewall", .disable "NAT",
      .enable "QoS"]) (Run.foldl step _ [.rebuild, .enable "NAT"]) (by decide) 3 (by decide)).2

end DpdkBeginners.FeatureArc
