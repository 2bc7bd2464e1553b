import DpdkBeginners.Lib.Run
import Mathlib.Data.List.Nodup

/-!
# The feature arc of `feature_arc/sample`

The nodes and the arc of `main.c` and its functions, one definition for each.

* The arrays are lists; a function that would write past the end of one returns `none`.
* `dump_pipeline` loops for as long as there is a next node.  `dumpPipeline` returns `none` when the
  loop is not over after as many nodes as it is given.
* A run is a sequence of calls of `feature_enable`, `feature_disable` and `feature_arc_rebuild`, in any
  order (`Step`).
-/

namespace DpdkBeginners.FeatureArc

open DpdkBeginners.Lib

/-! ### Data -/

/-- `struct node`. -/
structure Node where
  name : String
  next : Option String
  deriving DecidableEq

/-- An index of the arrays `features` and `enabled` of `struct feature_arc`. -/
structure Feature where
  name : String
  enabled : Bool
  deriving DecidableEq

/-- The static variables `nodes` and `l3_arc`. -/
structure ArcState where
  nodes : List Node
  startNode : String
  endNode : String
  features : List Feature
  deriving DecidableEq

/-- `MAX_FEATURES`. -/
def maxFeatures : ℕ := 8

/-- `MAX_NODES`. -/
def maxNodes : ℕ := 16

variable (s : ArcState)

/-! ### Setting up -/

/-- `add_node`. -/
def addNode (name : String) : Option ArcState :=
  if s.nodes.length < maxNodes then some { s with nodes := s.nodes ++ [⟨name, none⟩] } else none

/-- `feature_arc_init`. -/
def featureArcInit (startNode endNode : String) : ArcState :=
  { s with startNode := startNode, endNode := endNode, features := [] }

/-- `feature_register`. -/
def featureRegister (name : String) : Option ArcState :=
  if s.features.length < maxFeatures then
    some { s with features := s.features ++ [⟨name, false⟩] }
  else none

/-! ### Enabling features -/

/-- The loop of `feature_enable` and of `feature_disable`. -/
def setEnabled (name : String) (enabled : Bool) : ArcState :=
  { s with
    features := s.features.map fun f => if f.name = name then { f with enabled := enabled } else f }

/-- `feature_enable`. -/
def featureEnable (name : String) : ArcState := setEnabled s name true

/-- `feature_disable`. -/
def featureDisable (name : String) : ArcState := setEnabled s name false

/-! ### Rebuilding -/

/-- `set_next`: the first node with the name is linked. -/
def setNext (fromName toName : String) : List Node → List Node
  | [] => []
  | n :: nodes =>
    if n.name = fromName then { n with next := some toName } :: nodes
    else n :: setNext fromName toName nodes

/-- The loop of `feature_arc_rebuild`: the nodes and `prev` when it is over. -/
def rebuildLoop (nodes : List Node) (prev : String) : List Feature → List Node × String
  | [] => (nodes, prev)
  | f :: fs =>
    if f.enabled then rebuildLoop (setNext prev f.name nodes) f.name fs
    else rebuildLoop nodes prev fs

/-- `feature_arc_rebuild`. -/
def featureArcRebuild : ArcState :=
  let (nodes, prev) := rebuildLoop s.nodes s.startNode s.features
  { s with nodes := setNext prev s.endNode nodes }

/-! ### Walking -/

/-- The inner loop of `dump_pipeline`: the link of the last node with the name. -/
def nextOf (nodes : List Node) (cur : String) : Option String :=
  nodes.foldl (fun next n => if n.name = cur then n.next else next) none

/-- The outer loop of `dump_pipeline`: the names it prints, when there are at most `fuel`. -/
def dumpLoop (nodes : List Node) : ℕ → String → Option (List String)
  | 0, _ => none
  | fuel + 1, cur =>
    match nextOf nodes cur with
    | none => some [cur]
    | some next => (dumpLoop nodes fuel next).map (cur :: ·)

/-- `dump_pipeline`. -/
def dumpPipeline (fuel : ℕ) : Option (List String) := dumpLoop s.nodes fuel s.startNode

/-- The names of the features that are enabled, in the order in which they were registered. -/
def enabledNames (fs : List Feature) : List String := (fs.filter Feature.enabled).map Feature.name

/-! ### Arcs -/

/-- An arc: the names of its nodes, which are different, and among them its start, its end and its
features, which are different, too. -/
structure Arc where
  names : List String
  startNode : String
  endNode : String
  features : List String
  nodup_names : names.Nodup
  nodup : (startNode :: features ++ [endNode]).Nodup
  subset : ∀ x ∈ startNode :: features ++ [endNode], x ∈ names

/-- The state when the arc is set up, as `main` does. -/
def Arc.setup (A : Arc) : Option ArcState := do
  let s ← A.names.foldlM addNode ⟨[], "", "", []⟩
  A.features.foldlM featureRegister (featureArcInit s A.startNode A.endNode)

/-- The arc of `main`. -/
def mainArc : Arc where
  names := ["L3", "Firewall", "NAT", "QoS", "L4"]
  startNode := "L3"
  endNode := "L4"
  features := ["Firewall", "NAT", "QoS"]
  nodup_names := by decide
  nodup := by decide
  subset := by decide

/-- An arc whose features may be repeated and may name the start.  The end is another name, which need not
be that of a node. -/
structure RepeatArc where
  names : List String
  startNode : String
  endNode : String
  features : List String
  nodup_names : names.Nodup
  subset : ∀ x ∈ startNode :: features, x ∈ names
  end_notMem : endNode ∉ startNode :: features

/-- The state when such an arc is set up. -/
def RepeatArc.setup (A : RepeatArc) : Option ArcState := do
  let s ← A.names.foldlM addNode ⟨[], "", "", []⟩
  A.features.foldlM featureRegister (featureArcInit s A.startNode A.endNode)

/-- An arc is one of them. -/
def Arc.toRepeatArc (A : Arc) : RepeatArc where
  names := A.names
  startNode := A.startNode
  endNode := A.endNode
  features := A.features
  nodup_names := A.nodup_names
  subset := fun x hx => A.subset x (List.mem_append_left _ hx)
  end_notMem := fun h => (List.nodup_append.1 A.nodup).2.2 _ h _ (List.mem_singleton_self _) rfl

/-! ### Runs -/

/-- The calls that change an arc once it is set up. -/
inductive Event
  | enable (name : String)
  | disable (name : String)
  | rebuild
  deriving DecidableEq

/-- The state after a call. -/
def step : Event → ArcState
  | .enable name => featureEnable s name
  | .disable name => featureDisable s name
  | .rebuild => featureArcRebuild s

/-- One call. -/
def Step (ev : Event) (t : ArcState) : Prop := step s ev = t

end DpdkBeginners.FeatureArc
