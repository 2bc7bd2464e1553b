import Mathlib.Algebra.Order.BigOperators.Group.List
import Mathlib.Algebra.Order.Ring.Nat
import Mathlib.Data.List.Nodup
import Mathlib.Tactic.Common

/-!
# Walks of an `rte_graph`

A walk processes the source node, and then the nodes that have a pending stream, one after the other, in
the order in which the streams were started.  `rte_node_enqueue` appends objects to the stream of a node.

A node is pending once at most, so its stream grows at its end (`stream_enqueue`).  When each node is given
a weight, the pending ones weigh no more after an enqueue than the node it is for adds (`weight_enqueue`):
a walk of a graph without cycles ends.
-/

namespace DpdkBeginners.Rte

variable {ν α : Type*} [DecidableEq ν]

/-- The pending streams, the next one to be processed first. -/
abbrev Pending (ν α : Type*) := List (ν × List α)

/-- `rte_node_enqueue`. -/
def rteNodeEnqueue (p : Pending ν α) (node : ν) (objs : List α) : Pending ν α :=
  match p with
  | [] => [(node, objs)]
  | x :: p =>
    if x.1 = node then (node, x.2 ++ objs) :: p else x :: rteNodeEnqueue p node objs

/-- The objects in the stream of a node. -/
def Pending.stream (p : Pending ν α) (node : ν) : List α :=
  p.flatMap fun x => if x.1 = node then x.2 else []

/-- What is pending once a node has been taken to be processed. -/
def Pending.remove (p : Pending ν α) (node : ν) : Pending ν α := p.filter fun x => x.1 ≠ node

/-- The pending nodes. -/
def Pending.nodes (p : Pending ν α) : List ν := p.map Prod.fst

/-- The weights of the pending nodes. -/
def Pending.weight (w : ν → ℕ) (p : Pending ν α) : ℕ := (p.nodes.map w).sum

section Lemmas

variable {p : Pending ν α} {node k : ν} {objs : List α} (w : ν → ℕ)

/-! ### Streams -/

@[simp] theorem stream_nil (k : ν) : Pending.stream ([] : Pending ν α) k = [] := rfl

theorem stream_cons (x : ν × List α) (p : Pending ν α) (k : ν) :
    Pending.stream (x :: p) k = (if x.1 = k then x.2 else []) ++ p.stream k := rfl

@[simp] theorem stream_single (node k : ν) (objs : List α) :
    Pending.stream [(node, objs)] k = if node = k then objs else [] := by
  rw [stream_cons, stream_nil, List.append_nil]

theorem stream_eq_nil (hk : k ∉ p.nodes) : p.stream k = [] := by
  rw [Pending.stream, List.flatMap_eq_nil_iff]
  intro x hx
  rw [if_neg]
  rintro rfl
  exact hk (List.mem_map_of_mem hx)

/-- **A stream** grows at its end, and no other does. -/
theorem stream_enqueue (hp : p.nodes.Nodup) (node : ν) (objs : List α) (k : ν) :
    (rteNodeEnqueue p node objs).stream k = p.stream k ++ if node = k then objs else [] := by
  induction p with
  | nil => simp [rteNodeEnqueue, stream_cons]
  | cons x p ih =>
    obtain ⟨hx, hp⟩ := List.nodup_cons.1 hp
    unfold rteNodeEnqueue
    by_cases hnode : x.1 = node
    · rw [if_pos hnode, stream_cons, stream_cons, hnode]
      by_cases hk : node = k
      · have hnil : Pending.stream p k = [] := by
          rw [← hk, ← hnode]
          exact stream_eq_nil hx
        simp [hk, hnil]
      · simp [hk]
    · rw [if_neg hnode, stream_cons, stream_cons, ih hp, List.append_assoc]

theorem stream_remove (p : Pending ν α) (node k : ν) :
    (p.remove node).stream k = if node = k then [] else p.stream k := by
  induction p with
  | nil => simp [Pending.remove]
  | cons x p ih =>
    unfold Pending.remove at ih ⊢
    rw [List.filter_cons]
    by_cases hx : x.1 = node
    · rw [if_neg (by simpa using hx), ih, stream_cons, hx]
      by_cases hk : node = k
      · simp [hk]
      · simp [hk]
    · rw [if_pos (by simpa using hx), stream_cons, stream_cons, ih]
      by_cases hk : node = k
      · rw [if_pos hk, if_pos hk, if_neg (hk ▸ hx)]
        rfl
      · rw [if_neg hk, if_neg hk]

/-! ### Nodes -/

theorem nodes_enqueue (p : Pending ν α) (node : ν) (objs : List α) :
    (rteNodeEnqueue p node objs).nodes = if node ∈ p.nodes then p.nodes else p.nodes ++ [node] := by
  unfold Pending.nodes
  induction p with
  | nil => simp [rteNodeEnqueue]
  | cons x p ih =>
    unfold rteNodeEnqueue
    by_cases hx : x.1 = node
    · simp [hx]
    · by_cases hmem : node ∈ p.map Prod.fst
      · rw [if_pos hmem] at ih
        rw [if_neg hx, List.map_cons, ih, List.map_cons, if_pos (List.mem_cons_of_mem _ hmem)]
      · rw [if_neg hmem] at ih
        have hcons : node ∉ x.1 :: p.map Prod.fst := List.not_mem_cons_of_ne_of_not_mem (Ne.symm hx) hmem
        rw [if_neg hx, List.map_cons, ih, List.map_cons, if_neg hcons, List.cons_append]

theorem nodup_enqueue (hp : p.nodes.Nodup) (node : ν) (objs : List α) :
    (rteNodeEnqueue p node objs).nodes.Nodup := by
  rw [nodes_enqueue]
  split_ifs with hmem
  · exact hp
  · rw [List.nodup_append_comm]
    exact List.nodup_cons.2 ⟨hmem, hp⟩

theorem nodup_remove (hp : p.nodes.Nodup) (node : ν) : (p.remove node).nodes.Nodup :=
  hp.sublist (List.filter_sublist.map _)

/-! ### Objects that are enqueued one by one -/

section Singles

variable (f : α → ν)

theorem nodup_foldl_enqueue (hp : p.nodes.Nodup) (objs : List α) :
    (objs.foldl (fun p m => rteNodeEnqueue p (f m) [m]) p).nodes.Nodup := by
  induction objs generalizing p with
  | nil => exact hp
  | cons m objs ih => exact ih (nodup_enqueue hp (f m) [m])

/-- **Sorting by `rte_node_enqueue_x1`.** -/
theorem stream_foldl_enqueue (hp : p.nodes.Nodup) (objs : List α) (k : ν) :
    (objs.foldl (fun p m => rteNodeEnqueue p (f m) [m]) p).stream k =
      p.stream k ++ objs.filter fun m => f m = k := by
  induction objs generalizing p with
  | nil => simp
  | cons m objs ih =>
    rw [List.foldl_cons, ih (nodup_enqueue hp (f m) [m]), stream_enqueue hp, List.append_assoc]
    by_cases hm : f m = k
    · rw [if_pos hm, List.filter_cons_of_pos (by simpa using hm)]
      rfl
    · rw [if_neg hm, List.filter_cons_of_neg (by simpa using hm)]
      rfl

theorem mem_nodes_foldl_enqueue {objs : List α}
    (hk : k ∈ (objs.foldl (fun p m => rteNodeEnqueue p (f m) [m]) p).nodes) :
    k ∈ p.nodes ∨ ∃ m ∈ objs, f m = k := by
  induction objs generalizing p with
  | nil => exact .inl hk
  | cons m objs ih =>
    rcases ih hk with hmem | ⟨m', hm', rfl⟩
    · rw [nodes_enqueue] at hmem
      split_ifs at hmem
      · exact .inl hmem
      · rcases List.mem_append.1 hmem with hmem | hmem
        · exact .inl hmem
        · exact .inr ⟨m, List.mem_cons_self .., (List.mem_singleton.1 hmem).symm⟩
    · exact .inr ⟨m', List.mem_cons_of_mem _ hm', rfl⟩

end Singles

theorem flatMap_stream {β : Type*} (hp : p.nodes.Nodup) (k : ν) {g : List α → List β} (hg : g [] = []) :
    (p.flatMap fun x => if x.1 = k then g x.2 else []) = g (p.stream k) := by
  induction p with
  | nil => exact hg.symm
  | cons x p ih =>
    obtain ⟨hx, hp⟩ := List.nodup_cons.1 hp
    rw [List.flatMap_cons, ih hp, stream_cons]
    by_cases hk : x.1 = k
    · rw [if_pos hk, if_pos hk, stream_eq_nil (hk ▸ hx), hg, List.append_nil, List.append_nil]
    · rw [if_neg hk, if_neg hk]
      rfl

/-! ### Weights -/

theorem weight_enqueue (p : Pending ν α) (node : ν) (objs : List α) :
    (rteNodeEnqueue p node objs).weight w ≤ p.weight w + w node := by
  unfold Pending.weight
  rw [nodes_enqueue]
  split_ifs with hmem
  · exact Nat.le_add_right _ _
  · simp

theorem weight_remove (hmem : node ∈ p.nodes) : (p.remove node).weight w + w node ≤ p.weight w := by
  unfold Pending.weight Pending.nodes at *
  induction p with
  | nil => simp at hmem
  | cons x p ih =>
    unfold Pending.remove at ih ⊢
    have hle : ((p.filter fun x => x.1 ≠ node).map Prod.fst |>.map w).sum ≤ ((p.map Prod.fst).map w).sum :=
      ((List.filter_sublist.map _).map _).sum_le_sum fun _ _ => Nat.zero_le _
    by_cases hx : x.1 = node
    · rw [List.filter_cons, if_neg (by simpa using hx), List.map_cons, List.map_cons, List.sum_cons, hx]
      omega
    · have hih := ih ((List.mem_cons.1 hmem).resolve_left (Ne.symm hx))
      rw [List.filter_cons, if_pos (by simpa using hx)]
      simp only [List.map_cons, List.sum_cons]
      omega

end Lemmas

end DpdkBeginners.Rte
