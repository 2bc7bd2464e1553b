import DpdkBeginners.GraphTesting.Defs
import DpdkBeginners.Lib.Passes
import Mathlib.Data.List.Flatten

/-!
# The graph computes what the loop does

The operations write different bytes, so they may be exchanged, and a loop for each of them over a burst does the same
as one loop (`foldl_then`).  At any time, what is pending still has to make of the packets what the loop
would have made of those enqueued so far (`Inv`): when a walk has ended, the two agree
(`graph_agrees`).  As each operation undoes itself, `main` leaves all packets as they were
(`main_restores`).
-/

namespace DpdkBeginners.GraphTesting

open DpdkBeginners.Rte DpdkBeginners.Lib

variable {ι : Type*} [DecidableEq ι] {mem : Memory ι} {s t : State ι} {ev : Event ι} {evs : List (Event ι)}
  {pkts : List ι} {bs : List (List ι)}

/-! ### The operations -/

theorem exchange_xorByte (k k' : ℕ) (v v' : U8) :
    Exchange (xorByte k v : Memory ι → ι → Memory ι) (xorByte k' v') := by
  intro mem m m'
  funext x i
  unfold xorByte
  by_cases h : x = m ∧ i = k
  · by_cases h' : x = m' ∧ i = k'
    · simp only [if_pos h, if_pos h', BitVec.xor_assoc, BitVec.xor_comm v]
    · simp only [if_pos h, if_neg h']
  · simp only [if_neg h]

theorem xorByte_xorByte (k : ℕ) (v : U8) (mem : Memory ι) (m : ι) : xorByte k v (xorByte k v mem m) m = mem := by
  funext x i
  unfold xorByte
  by_cases h : x = m ∧ i = k
  · simp only [if_pos h, BitVec.xor_assoc, BitVec.xor_self, BitVec.xor_zero]
  · simp only [if_neg h]

/-- What the loop does to one packet. -/
def pipeline (mem : Memory ι) (m : ι) : Memory ι := forward (classify (parse mem m) m) m

theorem runNormalPipeline_eq (pkts : List ι) (mem : Memory ι) :
    runNormalPipeline pkts mem = pkts.foldl pipeline mem := rfl

theorem runNormalPipeline_append (xs ys : List ι) (mem : Memory ι) :
    runNormalPipeline (xs ++ ys) mem = runNormalPipeline ys (runNormalPipeline xs mem) := by
  unfold runNormalPipeline
  exact List.foldl_append

/-- **A loop for each operation.** -/
theorem runNormalPipeline_passes (pkts : List ι) (mem : Memory ι) :
    runNormalPipeline pkts mem = pkts.foldl forward (pkts.foldl classify (pkts.foldl parse mem)) := by
  have h₁ : Exchange (parse : Memory ι → ι → Memory ι) classify := exchange_xorByte 0 1 1 2
  have h₂ : Exchange (parse : Memory ι → ι → Memory ι) forward := exchange_xorByte 0 2 1 3
  have h₃ : Exchange (classify : Memory ι → ι → Memory ι) forward := exchange_xorByte 1 2 2 3
  rw [← foldl_then h₁, ← foldl_then (h₂.then h₃)]
  rfl

theorem exchange_pipeline {g : Memory ι → ι → Memory ι} (h : ∀ k v, Exchange (xorByte k v) g) :
    Exchange (pipeline : Memory ι → ι → Memory ι) g := by
  have h₁ : Exchange parse g := h 0 1
  have h₂ : Exchange classify g := h 1 2
  have h₃ : Exchange forward g := h 2 3
  exact (h₁.then h₂).then h₃

theorem pipeline_pipeline (mem : Memory ι) (m : ι) : pipeline (pipeline mem m) m = mem := by
  have h₁ : ∀ mem : Memory ι, parse (forward mem m) m = forward (parse mem m) m :=
    fun mem => exchange_xorByte 2 0 3 1 mem m m
  have h₂ : ∀ mem : Memory ι, classify (forward mem m) m = forward (classify mem m) m :=
    fun mem => exchange_xorByte 2 1 3 2 mem m m
  have h₃ : ∀ mem : Memory ι, parse (classify mem m) m = classify (parse mem m) m :=
    fun mem => exchange_xorByte 1 0 2 1 mem m m
  unfold pipeline
  rw [h₁, h₂, h₃]
  unfold parse classify forward
  rw [xorByte_xorByte, xorByte_xorByte, xorByte_xorByte]

/-- **The loop undoes itself.** -/
theorem runNormalPipeline_twice (pkts : List ι) (mem : Memory ι) :
    runNormalPipeline pkts (runNormalPipeline pkts mem) = mem :=
  foldl_undo (exchange_pipeline fun k v => (exchange_pipeline fun k' v' => exchange_xorByte k' k v' v).symm)
    pipeline_pipeline mem pkts

/-! ### The invariant -/

/-- What is still to be made of the packets when the objects are in the stream of a node. -/
def finish (objs : List ι) (mem : Memory ι) : Node → Memory ι
  | .parseNode => objs.foldl forward (objs.foldl classify (objs.foldl parse mem))
  | .classifyNode => objs.foldl forward (objs.foldl classify mem)
  | .forwardNode => objs.foldl forward mem

/-- How many nodes are still to be processed. -/
def Node.left : Node → ℕ
  | .parseNode => 3
  | .classifyNode => 2
  | .forwardNode => 1

/-- A walk starts. -/
def Event.isWalk : Event ι → Bool
  | .walk _ => true
  | .node _ => false

/-- A node is processed. -/
def Event.isNode : Event ι → Bool
  | .walk _ => false
  | .node _ => true

/-- The packets have been enqueued and the walks have started as in `evs`. -/
def Inv (mem : Memory ι) (evs : List (Event ι)) (s : State ι) : Prop :=
  let goal := runNormalPipeline (evs.flatMap Event.pkts) mem
  let nodes := evs.countP Event.isNode
  let walks := evs.countP Event.isWalk
  (s.pending = [] ∧ s.mem = goal ∧ nodes = 3 * walks) ∨
    ∃ n objs, s.pending = [(n, objs)] ∧ finish objs s.mem n = goal ∧ nodes + n.left = 3 * walks

theorem step_node {n : Node} {objs : List ι} (hp : s.pending = [(n, objs)]) :
    Enabled s (.node n) ∧ step s (.node n) = process ⟨s.mem, []⟩ objs n := by
  refine ⟨?_, ?_⟩
  · simp [Enabled, hp, Pending.nodes]
  · simp [step, hp, Pending.remove]

theorem Inv.step (h : Inv mem evs s) (hst : Step s ev t) : Inv mem (evs ++ [ev]) t := by
  obtain ⟨hen, rfl⟩ := hst
  rcases h with ⟨hp, hmem, hcount⟩ | ⟨n, objs, hp, hmem, hcount⟩
  · cases ev with
    | walk pkts =>
      refine .inr ⟨.parseNode, pkts, ?_, ?_, ?_⟩
      · simp [GraphTesting.step, startNodeProcess, hp, rteNodeEnqueue]
      · have hpkts : (evs ++ [Event.walk pkts]).flatMap Event.pkts = evs.flatMap Event.pkts ++ pkts := by
          simp [List.flatMap_append, Event.pkts]
        rw [hpkts, runNormalPipeline_append, ← hmem]
        exact (runNormalPipeline_passes pkts s.mem).symm
      · simp only [List.countP_append, hcount]
        simp [Event.isWalk, Event.isNode, Node.left, Nat.mul_add]
    | node n =>
      -- nothing is pending
      simp [Enabled, hp, Pending.nodes] at hen
  · cases ev with
    | walk pkts =>
      -- the walk before has not ended
      rw [hen.1] at hp
      cases hp
    | node n' =>
      obtain rfl : n' = n := by simpa [Enabled, hp, Pending.nodes] using hen
      have hpkts : (evs ++ [Event.node n']).flatMap Event.pkts = evs.flatMap Event.pkts := by
        simp [List.flatMap_append, Event.pkts]
      have hwalks : (evs ++ [Event.node n']).countP Event.isWalk = evs.countP Event.isWalk := by
        simp [List.countP_append, Event.isWalk]
      have hnodes : (evs ++ [Event.node n']).countP Event.isNode = evs.countP Event.isNode + 1 := by
        simp [List.countP_append, Event.isNode]
      unfold Inv
      simp only [hpkts, hwalks, hnodes]
      rw [(step_node hp).2]
      cases n' with
      | parseNode => exact .inr ⟨.classifyNode, objs, rfl, hmem, by rw [← hcount]; rfl⟩
      | classifyNode => exact .inr ⟨.forwardNode, objs, rfl, hmem, by rw [← hcount]; rfl⟩
      | forwardNode => exact .inl ⟨rfl, hmem, hcount⟩

theorem run_inv (h : Run Step ⟨mem, []⟩ evs s) : Inv mem evs s := by
  induction h with
  | refl => exact .inl ⟨rfl, rfl, rfl⟩
  | snoc _ hst ih => exact ih.step hst

/-- **The graph agrees with the loop.**  In every run of walks, when nothing is pending, the packets are what the loop
would have made of all that have been enqueued, and three nodes have been processed in each walk; when something
is pending, the walk goes on. -/
theorem graph_agrees (h : Run Step ⟨mem, []⟩ evs s) :
    (s.pending = [] → s.mem = runNormalPipeline (evs.flatMap Event.pkts) mem ∧
      evs.countP Event.isNode = 3 * evs.countP Event.isWalk) ∧
    (s.pending ≠ [] → ∃ n t, Step s (.node n) t) := by
  rcases run_inv h with ⟨hp, hmem, hcount⟩ | ⟨n, objs, hp, -, -⟩
  · exact ⟨fun _ => ⟨hmem, hcount⟩, fun hne => absurd hp hne⟩
  · refine ⟨fun hnil => ?_, fun _ => ⟨n, _, (step_node hp).1, rfl⟩⟩
    rw [hnil] at hp
    cases hp

/-- One burst, of the same packet 32 times: its operations are undone in pairs. -/
theorem graph_agrees_burst : ∃ (evs : List (Event ℕ)) (s : State ℕ), s.pending = [] ∧
    evs.flatMap Event.pkts = List.replicate burst 0 ∧
    s.mem = runNormalPipeline (evs.flatMap Event.pkts) fun _ _ => 0 := by
  let b : List ℕ := List.replicate burst 0
  have h₀ : Step ⟨fun _ _ => 0, []⟩ (.walk b) ⟨fun _ _ => 0, [(.parseNode, b)]⟩ := ⟨⟨rfl, rfl⟩, rfl⟩
  have h₁ := step_node (s := ⟨fun _ _ => 0, [(.parseNode, b)]⟩) rfl
  have h₂ := step_node (s := process ⟨fun _ _ => 0, []⟩ b .parseNode) rfl
  have h₃ := step_node (s := process ⟨b.foldl parse fun _ _ => 0, []⟩ b .classifyNode) rfl
  have hrun := (((Run.refl.snoc h₀).snoc h₁).snoc h₂).snoc h₃
  exact ⟨_, _, rfl, rfl, ((graph_agrees hrun).1 rfl).1⟩

/-! ### What `main` does -/

omit [DecidableEq ι] in
/-- **The bursts** are the array, cut into pieces of 32, as long as there are such pieces. -/
theorem bursts_spec (pkts : List ι) (i : ℕ) (hi : i ≤ pkts.length) :
    (burst ∣ pkts.length - i ↔ ∃ bs, bursts pkts i = some bs) ∧
    ∀ bs, bursts pkts i = some bs → bs.flatten = pkts.drop i ∧ ∀ b ∈ bs, b.length = burst := by
  fun_induction bursts pkts i with
  | case1 i hlt hle ih =>
    obtain ⟨hdvd, hspec⟩ := ih hle
    have hsub : pkts.length - i = pkts.length - (i + burst) + burst := by omega
    refine ⟨?_, fun bs hbs => ?_⟩
    · rw [hsub, Nat.dvd_add_self_right, hdvd]
      simp
    · obtain ⟨bs', hbs', rfl⟩ := Option.map_eq_some_iff.1 hbs
      obtain ⟨hflatten, hlen⟩ := hspec bs' hbs'
      refine ⟨?_, fun b hb => ?_⟩
      · rw [List.flatten_cons, hflatten, ← List.drop_drop, List.take_append_drop]
      · rcases List.mem_cons.1 hb with rfl | hb
        · simp only [List.length_take, List.length_drop]
          omega
        · exact hlen b hb
  | case2 i hlt hle =>
    refine ⟨⟨fun hdvd => ?_, fun h => ?_⟩, fun bs hbs => ?_⟩
    · -- fewer than 32 packets are left, but one
      exact absurd (Nat.le_of_dvd (by omega) hdvd) (by omega)
    · obtain ⟨bs, hbs⟩ := h
      cases hbs
    · cases hbs
  | case3 i hlt =>
    have hlast : pkts.length = i := by omega
    refine ⟨⟨fun _ => ⟨[], rfl⟩, fun _ => by simp [hlast]⟩, fun bs hbs => ?_⟩
    obtain rfl := Option.some.inj hbs
    exact ⟨by simp [hlast], nofun⟩

/-- The burst that an event enqueues. -/
def Event.enqueued : Event ι → Option (List ι)
  | .walk pkts => some pkts
  | .node _ => none

omit [DecidableEq ι] in
theorem flatMap_pkts (evs : List (Event ι)) : evs.flatMap Event.pkts = (evs.filterMap Event.enqueued).flatten := by
  induction evs with
  | nil => rfl
  | cons ev evs ih =>
    cases ev with
    | walk pkts =>
      rw [List.flatMap_cons, ih]
      rfl
    | node n =>
      rw [List.flatMap_cons, ih]
      rfl

theorem run_walk (hp : s.pending = []) (hlen : pkts.length = burst) :
    ∃ evs t, Run Step s evs t ∧ evs.filterMap Event.enqueued = [pkts] ∧ t.pending = [] := by
  have h₀ : Step s (.walk pkts) ⟨s.mem, [(.parseNode, pkts)]⟩ :=
    ⟨⟨hp, hlen⟩, by simp [GraphTesting.step, startNodeProcess, hp, rteNodeEnqueue]⟩
  have h₁ := step_node (s := ⟨s.mem, [(.parseNode, pkts)]⟩) rfl
  have h₂ := step_node (s := process ⟨s.mem, []⟩ pkts .parseNode) rfl
  have h₃ := step_node (s := process ⟨pkts.foldl parse s.mem, []⟩ pkts .classifyNode) rfl
  exact ⟨_, _, (((Run.refl.snoc h₀).snoc h₁).snoc h₂).snoc h₃, rfl, rfl⟩

theorem run_bursts (hbs : ∀ b ∈ bs, b.length = burst) (hp : s.pending = []) :
    ∃ evs t, Run Step s evs t ∧ evs.filterMap Event.enqueued = bs ∧ t.pending = [] := by
  induction bs generalizing s with
  | nil => exact ⟨[], s, .refl, rfl, hp⟩
  | cons b bs ih =>
    obtain ⟨evs, t, hrun, hevs, ht⟩ := run_walk hp (hbs b List.mem_cons_self)
    obtain ⟨evs', u, hrun', hevs', hu⟩ := ih (fun b' hb' => hbs b' (List.mem_cons_of_mem _ hb')) ht
    exact ⟨evs ++ evs', u, hrun.append hrun', by rw [List.filterMap_append, hevs, hevs']; rfl, hu⟩

/-- **`main` leaves the packets as they were.**  The second loop reads past the end of the array if and only if the
number of packets is not a multiple of 32; otherwise its walks can be made, and when they have ended, the graph
has undone what the plain loop had done to the packets before. -/
theorem main_restores (pkts : List ι) (mem : Memory ι) :
    (burst ∣ pkts.length ↔ ∃ bs, bursts pkts 0 = some bs) ∧
    ∀ bs, bursts pkts 0 = some bs →
      (∃ evs s, Run Step ⟨runNormalPipeline pkts mem, []⟩ evs s ∧ evs.filterMap Event.enqueued = bs ∧
        s.pending = []) ∧
      ∀ evs s, Run Step ⟨runNormalPipeline pkts mem, []⟩ evs s → evs.filterMap Event.enqueued = bs →
        s.pending = [] → s.mem = mem := by
  obtain ⟨hdvd, hspec⟩ := bursts_spec pkts 0 (Nat.zero_le _)
  refine ⟨hdvd, fun bs hbs => ?_⟩
  obtain ⟨hflatten, hlen⟩ := hspec bs hbs
  refine ⟨run_bursts hlen rfl, fun evs s hrun hevs hp => ?_⟩
  rcases run_inv hrun with ⟨-, hmem, -⟩ | ⟨n, objs, hp', -, -⟩
  · rw [hmem, flatMap_pkts, hevs, hflatten, List.drop_zero, runNormalPipeline_twice]
  · rw [hp] at hp'
    cases hp'

end DpdkBeginners.GraphTesting
