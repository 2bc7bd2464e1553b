import DpdkBeginners.FeatureArc.Wiring

/-!
# The walk when features are repeated

A feature that is registered twice is linked twice by a rebuild, and the second link counts, so the walk leaves
out what stands between.  It still comes to the end (`walk_ends`): behind the last occurrence of a name there
is only what the walk has not visited.
-/

namespace DpdkBeginners.FeatureArc

open DpdkBeginners.Lib

variable {s : ArcState} {A : RepeatArc} {evs : List Event}

/-- **The walk after a rebuild ends**, whatever calls came before.  It visits the start, some of the enabled
features, in an order in which they were registered, and the end, each once. -/
theorem walk_ends {s₀ : ArcState} (h₀ : A.setup = some s₀)
    (h : Run Step s₀ (evs ++ [.rebuild]) s) :
    s.features.map Feature.name = A.features ∧
      ∃ mid, mid.Sublist (enabledNames s.features) ∧ (A.startNode :: mid ++ [A.endNode]).Nodup ∧
        ∀ fuel, (enabledNames s.features).length + 2 ≤ fuel →
          dumpPipeline s fuel = some (A.startNode :: mid ++ [A.endNode]) := by
  obtain ⟨u, hu, hlast⟩ := Run.snoc_iff.1 h
  obtain rfl : featureArcRebuild u = s := hlast
  have hs := RepeatArc.run_wired h₀ hu
  obtain ⟨mid, hmid, hnd, hfollows⟩ := exists_follows_relink hs.end_notMem hs.end_free
  rw [← hs.nextOf_rebuild] at hfollows
  refine ⟨hs.features, mid, hmid, hnd, fun fuel hfuel => ?_⟩
  have hlen : (A.startNode :: mid ++ [A.endNode]).length ≤ fuel := by
    have hle : mid.length ≤ (enabledNames u.features).length := hmid.length_le
    have hfuel' : (enabledNames u.features).length + 2 ≤ fuel := hfuel
    simp only [List.length_append, List.length_cons, List.length_nil]
    omega
  unfold dumpPipeline
  rw [show (featureArcRebuild u).startNode = A.startNode from hs.startNode]
  exact dumpLoop_of_follows hfollows hlen

/-- The nodes of `main`, with the firewall before and behind the NAT and the start as the last feature. -/
def repeatArc : RepeatArc where
  names := mainArc.names
  startNode := "L3"
  endNode := "L4"
  features := ["Firewall", "NAT", "Firewall", "L3"]
  nodup_names := mainArc.nodup_names
  subset := by decide
  end_notMem := by decide

/-- Its state when it is set up. -/
def repeatState : ArcState where
  nodes := [⟨"L3", none⟩, ⟨"Firewall", none⟩, ⟨"NAT", none⟩, ⟨"QoS", none⟩, ⟨"L4", none⟩]
  startNode := "L3"
  endNode := "L4"
  features := [⟨"Firewall", false⟩, ⟨"NAT", false⟩, ⟨"Firewall", false⟩, ⟨"L3", false⟩]

/-- A rebuild with the firewall and the start, and one with the firewall and the NAT. -/
theorem walk_ends_repeats :
    ∃ mid, mid.Sublist ["Firewall", "NAT", "Firewall"] ∧ ("L3" :: mid ++ ["L4"]).Nodup ∧
      ∀ fuel, 5 ≤ fuel →
        dumpPipeline ([.enable "Firewall", .enable "L3", .rebuild, .enable "NAT", .disable "L3",
          .rebuild].foldl step repeatState) fuel = some ("L3" :: mid ++ ["L4"]) := by
  have hrun : Run Step repeatState ([.enable "Firewall", .enable "L3", .rebuild, .enable "NAT",
      .disable "L3"] ++ [.rebuild]) _ := Run.foldl step repeatState _
  exact (walk_ends (show repeatArc.setup = some repeatState by decide) hrun).2

/-- The firewall comes last, so the NAT is left out. -/
example :
    dumpPipeline ([.enable "Firewall", .enable "NAT", .rebuild].foldl step repeatState) 5 =
      some ["L3", "Firewall", "L4"] := by
  decide

end DpdkBeginners.FeatureArc
