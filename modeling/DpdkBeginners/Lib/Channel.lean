import DpdkBeginners.Lib.Heap

/-!
# Cells that are passed through a queue

One party puts pointers into a queue and another takes them out.  `Channel h left queue right sent taken` says that
the allocated cells are the ones that the sender holds, those in the queue and those that the receiver holds,
and that what has been taken from the queue, and then what is in it, is what has been sent, in this order.

* `Channel.alloc`, `Channel.send`, `Channel.take`, `Channel.release`, `Channel.discard`: what the parties do.
* `Channel.load_right`: what the receiver holds it may load.
* `Channel.mem_queue_iff`: when no party holds anything, the allocated cells are the ones in the queue.
-/

namespace DpdkBeginners.Lib

variable {α : Type*}

/-- The cells of the sender, of the queue and of the receiver are the ones that are allocated, and nothing
is lost or duplicated between the two. -/
def Channel (h : Heap α) (left : List (ℕ × α)) (queue : List ℕ) (right : List (ℕ × α))
    (sent taken : List α) : Prop :=
  ∃ mid : List (ℕ × α), queue = mid.map Prod.fst ∧ Owns h (left ++ (mid ++ right)) ∧
    sent = taken ++ mid.map Prod.snd

namespace Channel

variable {h : Heap α} {left right : List (ℕ × α)} {queue : List ℕ} {sent taken : List α} {a : ℕ} {v : α}

theorem empty : Channel (Heap.empty : Heap α) [] [] [] [] [] := ⟨[], rfl, Owns.empty, rfl⟩

theorem alloc (hc : Channel h [] queue right sent taken) (ha : h a = none) (v : α) :
    Channel (h.alloc a v) [(a, v)] queue right sent taken := by
  obtain ⟨mid, hqueue, howns, hsent⟩ := hc
  exact ⟨mid, hqueue, howns.alloc ha v, hsent⟩

theorem send (hc : Channel h [(a, v)] queue right sent taken) :
    Channel h [] (queue ++ [a]) right (sent ++ [v]) taken := by
  obtain ⟨mid, rfl, howns, rfl⟩ := hc
  refine ⟨mid ++ [(a, v)], by simp, howns.perm ?_, by simp⟩
  have hp : ((a, v) :: (mid ++ right)).Perm (mid ++ (a, v) :: right) := List.perm_middle.symm
  simpa using hp

theorem take (hc : Channel h left (a :: queue) [] sent taken) :
    ∃ v, Channel h left queue [(a, v)] sent (taken ++ [v]) := by
  obtain ⟨mid, hqueue, howns, rfl⟩ := hc
  cases mid with
  | nil => cases hqueue
  | cons c mid =>
    obtain ⟨b, v⟩ := c
    obtain ⟨rfl, rfl⟩ := List.cons.inj hqueue
    refine ⟨v, mid, rfl, howns.perm (List.Perm.append_left left ?_), by simp⟩
    have hp : ((a, v) :: mid).Perm (mid ++ [(a, v)]) := (List.perm_append_singleton (a, v) mid).symm
    simpa using hp

theorem load_right (hc : Channel h left queue ((a, v) :: right) sent taken) : h a = some v := by
  obtain ⟨mid, -, howns, -⟩ := hc
  exact howns.load (by simp)

theorem release (hc : Channel h left queue [(a, v)] sent taken) :
    ∃ h', h.free a = some h' ∧ Channel h' left queue [] sent taken := by
  obtain ⟨mid, hqueue, howns, hsent⟩ := hc
  have hp : (left ++ (mid ++ [(a, v)])).Perm ((a, v) :: (left ++ (mid ++ []))) := by
    rw [← List.append_assoc, List.append_nil]
    exact List.perm_append_singleton ..
  obtain ⟨h', hfree, howns'⟩ := (howns.perm hp).free
  exact ⟨h', hfree, mid, hqueue, howns', hsent⟩

theorem discard (hc : Channel h [(a, v)] queue right sent taken) :
    ∃ h', h.free a = some h' ∧ Channel h' [] queue right sent taken := by
  obtain ⟨mid, hqueue, howns, hsent⟩ := hc
  obtain ⟨h', hfree, howns'⟩ := Owns.free howns
  exact ⟨h', hfree, mid, hqueue, howns', hsent⟩

theorem ne_none_of_mem (hc : Channel h left queue right sent taken) (ha : a ∈ queue) : h a ≠ none := by
  obtain ⟨mid, rfl, howns, -⟩ := hc
  intro hnone
  refine howns.eq_none_iff.1 hnone ?_
  simp only [List.map_append, List.mem_append]
  exact .inr (.inl ha)

theorem mem_queue_iff (hc : Channel h [] queue [] sent taken) : h a ≠ none ↔ a ∈ queue := by
  refine ⟨fun ha => ?_, hc.ne_none_of_mem⟩
  obtain ⟨mid, rfl, howns, -⟩ := hc
  by_contra hno
  exact ha (howns.eq_none_iff.2 (by simpa using hno))

theorem nodup (hc : Channel h left queue right sent taken) : queue.Nodup := by
  obtain ⟨mid, rfl, howns, -⟩ := hc
  have hnodup := howns.nodup
  rw [List.map_append, List.map_append] at hnodup
  exact hnodup.of_append_right.of_append_left

theorem taken_prefix (hc : Channel h left queue right sent taken) : taken <+: sent := by
  obtain ⟨mid, -, -, rfl⟩ := hc
  exact List.prefix_append ..

theorem length_eq (hc : Channel h left queue right sent taken) :
    sent.length = taken.length + queue.length := by
  obtain ⟨mid, rfl, -, rfl⟩ := hc
  simp

theorem exists_eq_none (hc : Channel h left queue right sent taken) : ∃ a, h a = none := by
  obtain ⟨mid, -, howns, -⟩ := hc
  exact howns.exists_eq_none

end Channel

end DpdkBeginners.Lib
