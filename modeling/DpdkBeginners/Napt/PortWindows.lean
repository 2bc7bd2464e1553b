import DpdkBeginners.Napt.Effect
import DpdkBeginners.Napt.Ports

/-!
# Any window of allocations

What `allocate_port` returns in a sequence of calls (`portAfter`), and the ports of the entries that a run of the
NAT opens, in the order in which it opens them (`LogStep`).  An entry is opened with the port of one call, and
nothing else calls `allocate_port`, so entries that are opened less than a cycle apart have different ports
(`port_windows`).
-/

namespace DpdkBeginners.Napt

open DpdkBeginners.Rte DpdkBeginners.Lib

variable {E : Env} {s t : NatState} {p : Ptr} {e : NatEntry} {es log : List NatEntry} {ev : Event}
  {evs : List Event} {ip : U32}

/-! ### Calls of `allocate_port` -/

/-- The state after `n` calls of `allocate_port`. -/
def allocated (s : NatState) (n : ℕ) : NatState := (fun t => (allocatePort t).1)^[n] s

/-- What the next call returns then, in host order. -/
def portAfter (s : NatState) (n : ℕ) : U16 := rteBeToCpu16 (allocatePort (allocated s n)).2

theorem allocated_currentPort (s : NatState) (n : ℕ) :
    (allocated s n).currentPort = nextPort^[n] s.currentPort := by
  induction n with
  | zero => rfl
  | succ n ih =>
    rw [Function.iterate_succ_apply', ← ih, allocated, Function.iterate_succ_apply']
    rfl

theorem portAfter_eq (s : NatState) (n : ℕ) : portAfter s n = nextPort^[n + 1] s.currentPort := by
  rw [Function.iterate_succ_apply', ← allocated_currentPort]
  exact bswap16_bswap16 _

/-! ### The entries that a run opens -/

/-- What a step opens: the entry at an address that was free, if there is one now. -/
inductive Opens (s t : NatState) : List NatEntry → Prop
  | entry {p : Ptr} {e : NatEntry} : s.heap p = none → t.heap p = some e → Opens s t [e]
  | nothing : (∀ p, s.heap p = none → t.heap p = none) → Opens s t []

/-- A step, with the entries that have been opened so far. -/
def LogStep (E : Env) (a : NatState × List NatEntry) (ev : Event) (b : NatState × List NatEntry) :
    Prop :=
  Step E a.1 ev b.1 ∧ ∃ es, Opens a.1 b.1 es ∧ b.2 = a.2 ++ es

theorem Opens.eq_nil (ho : Opens s t es) (h : ∀ p, s.heap p = none → t.heap p = none) : es = [] := by
  cases ho with
  | entry hs ht =>
    rw [h _ hs] at ht
    cases ht
  | nothing => rfl

/-- **A step that opens an entry** takes the next port for it; any other leaves the counter alone. -/
theorem Step.opens (h : Step E s ev t) (ho : Opens s t es) :
    es = [] ∧ t.currentPort = s.currentPort ∨
      ∃ e, es = [e] ∧ t.currentPort = nextPort s.currentPort ∧
        e.publicPort = rteCpuToBe16 t.currentPort := by
  cases h.effect with
  | dropped => exact .inl ⟨ho.eq_nil fun _ hp => hp, rfl⟩
  | refreshed => exact .inl ⟨ho.eq_nil fun _ hp => hp, rfl⟩
  | @created _ _ _ _ q _ _ _ _ hq =>
    cases ho with
    | @entry p e hs ht =>
      by_cases hpq : p = q
      · subst hpq
        rw [created_heap, Function.update_self] at ht
        obtain rfl := Option.some.inj ht
        exact .inr ⟨_, rfl, rfl, rfl⟩
      · rw [created_heap, Function.update_of_ne hpq, hs] at ht
        cases ht
    | nothing hnone =>
      have hcontra := hnone q hq
      rw [created_heap, Function.update_self] at hcontra
      cases hcontra
  | expired =>
    refine .inl ⟨ho.eq_nil fun p hp => ?_, rfl⟩
    rw [expired_heap, Function.update_apply, hp, ite_self]

theorem exists_log (h : Run (Step E) s evs t) (log : List NatEntry) :
    ∃ log', Run (LogStep E) (s, log) evs (t, log') := by
  induction h with
  | refl => exact ⟨log, .refl⟩
  | @snoc t u _ _ _ hstep ih =>
    obtain ⟨log', hrun⟩ := ih
    obtain ⟨es, hes⟩ : ∃ es, Opens t u es := by
      by_cases hnone : ∀ p, t.heap p = none → u.heap p = none
      · exact ⟨[], .nothing hnone⟩
      · obtain ⟨p, hp, hne⟩ : ∃ p, t.heap p = none ∧ u.heap p ≠ none := by simpa using hnone
        obtain ⟨e, he⟩ := Option.ne_none_iff_exists'.1 hne
        exact ⟨[e], .entry hp he⟩
    exact ⟨log' ++ es, hrun.snoc ⟨hstep, es, hes, rfl⟩⟩

/-- **The ports of a run**: one call of `allocate_port` for each entry, in order. -/
theorem run_ports (h : Run (LogStep E) (natInit ip, []) evs (s, log)) :
    s.currentPort = nextPort^[log.length] minPort ∧
      log.map NatEntry.publicPort =
        (List.range log.length).map fun i => rteCpuToBe16 (nextPort^[i + 1] minPort) := by
  refine h.invariant (I := fun a => a.1.currentPort = nextPort^[a.2.length] minPort ∧
    a.2.map NatEntry.publicPort =
      (List.range a.2.length).map fun i => rteCpuToBe16 (nextPort^[i + 1] minPort)) ⟨rfl, rfl⟩ ?_
  rintro ⟨s, log⟩ ev ⟨t, log'⟩ ⟨hport, hlog⟩ ⟨hstep, es, hopens, hlog'⟩
  obtain rfl : log' = log ++ es := hlog'
  rcases hstep.opens hopens with ⟨rfl, hsame⟩ | ⟨e, rfl, hnext, he⟩
  · rw [List.append_nil]
    exact ⟨hsame.trans hport, hlog⟩
  · have hnext' : t.currentPort = nextPort^[log.length + 1] minPort := by
      rw [Function.iterate_succ_apply', ← hport]
      exact hnext
    refine ⟨by rwa [List.length_append, List.length_singleton], ?_⟩
    rw [List.map_append, hlog, List.length_append, List.length_singleton, List.range_succ,
      List.map_append, List.map_singleton, List.map_singleton, he, hnext']

theorem run_port (h : Run (LogStep E) (natInit ip, []) evs (s, log)) {i : ℕ}
    (he : log[i]? = some e) : e.publicPort = rteCpuToBe16 (nextPort^[i + 1] minPort) := by
  have hmap := congrArg (fun l => l[i]?) (run_ports h).2
  obtain ⟨hi, -⟩ := List.getElem?_eq_some_iff.1 he
  simp only [List.getElem?_map, he, Option.map_some, List.getElem?_range hi] at hmap
  exact Option.some.inj hmap

/-! ### Windows -/

/-- **The port allocator.**  Whatever number of calls came before, the next port is in the range and the
increment does not overflow; as many calls in a row as the range has ports return each of them once.  So
two entries that a run opens have different public ports if fewer allocations than that are between them. -/
theorem port_windows (ip : U32) :
    (∀ n, minPort ≤ portAfter (natInit ip) n ∧ portAfter (natInit ip) n ≤ maxPort - 1) ∧
    (∀ n, ((allocated (natInit ip) n).currentPort + 1).toNat =
      (allocated (natInit ip) n).currentPort.toNat + 1) ∧
    (∀ n i j, i < portCycle → j < portCycle →
      portAfter (natInit ip) (n + i) = portAfter (natInit ip) (n + j) → i = j) ∧
    (∀ n p, minPort ≤ p → p ≤ maxPort - 1 →
      ∃ i < portCycle, portAfter (natInit ip) (n + i) = p) ∧
    ∀ E evs s log, Run (LogStep E) (natInit ip, []) evs (s, log) →
      s.currentPort = (allocated (natInit ip) log.length).currentPort ∧
      ∀ i j e e', log[i]? = some e → log[j]? = some e' → i < j → j - i < portCycle →
        e.publicPort ≠ e'.publicPort := by
  have hcycle : ∀ n, InCycle (nextPort^[n] minPort) := fun n => (iterate_nextPort inCycle_minPort n).1
  have hafter : ∀ n, portAfter (natInit ip) n = nextPort^[n + 1] minPort := portAfter_eq _
  have hcounter : ∀ n, (allocated (natInit ip) n).currentPort = nextPort^[n] minPort :=
    allocated_currentPort _
  refine ⟨fun n => ?_, fun n => ?_, fun n i j hi hj heq => ?_, fun n p hlo hhi => ?_,
    fun E evs s log hrun => ⟨?_, fun i j e e' hi hj hij hlt heq => ?_⟩⟩
  · rw [hafter]
    exact inCycle_iff.1 (hcycle _)
  · rw [hcounter]
    exact (hcycle n).toNat_add_one
  · rw [hafter, hafter] at heq
    rcases Nat.lt_trichotomy i j with hij | rfl | hij
    · exact absurd heq (iterate_nextPort_ne inCycle_minPort (by omega) (by omega))
    · rfl
    · exact absurd heq.symm (iterate_nextPort_ne inCycle_minPort (by omega) (by omega))
  · obtain ⟨i, hi, heq⟩ := exists_iterate_nextPort (hcycle (n + 1)) (inCycle_iff.2 ⟨hlo, hhi⟩)
    refine ⟨i, hi, ?_⟩
    rw [hafter, ← heq, ← Function.iterate_add_apply]
    congr 1
    omega
  · rw [hcounter]
    exact (run_ports hrun).1
  · rw [run_port hrun hi, run_port hrun hj] at heq
    exact iterate_nextPort_ne inCycle_minPort (by omega) (by omega) (bswap16_injective heq)

theorem port_windows_flowAB :
    (freshEntry (natInit mainPublicIp) flowA).publicPort ≠
      (freshEntry (stateA ghz (success 0)) flowB).publicPort := by
  let e₁ := freshEntry (natInit mainPublicIp) flowA
  let e₂ := freshEntry (stateA ghz (success 0)) flowB
  have hA : LogStep ghz (natInit mainPublicIp, []) _ (stateA ghz (success 0), [e₁]) :=
    ⟨step_flowA (success 0) rfl, [e₁], .entry (p := 0) rfl rfl, rfl⟩
  have hB : LogStep ghz (stateA ghz (success 0), [e₁]) _
      (stateAB ghz (success 0) (success 1), [e₁, e₂]) :=
    ⟨step_flowB (success 0) (success 1) rfl, [e₂], .entry (p := 1) rfl rfl, rfl⟩
  have hrun := (port_windows mainPublicIp).2.2.2.2 ghz _ _ _ ((Run.refl.snoc hA).snoc hB)
  exact hrun.2 0 1 e₁ e₂ rfl rfl (by decide) (by decide)

end DpdkBeginners.Napt
