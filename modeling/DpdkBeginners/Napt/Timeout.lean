import DpdkBeginners.Napt.Effect

/-!
# The idle timeout

A timed run is made of packets and calls of `nat_timer_manage`.  Its states carry, beside the state of
the NAT, the clock reading at which each entry was last created or found by a lookup (`lastHit`).

The invariant is `OnTime`: the deadline of every armed timer is the last hit of its entry plus the
timeout.  It makes the removal of an entry exact (`idle_timeout`).  The readings of the clock need not
be nondecreasing for this.
-/

namespace DpdkBeginners.Napt

open DpdkBeginners.Rte DpdkBeginners.Lib

variable {E : Env} {now : ℕ} {o : Outcome} {s t : NatState} {m : Mbuf} {p : Ptr} {e : NatEntry}
  {r : Result} {order : List Ptr} {ip : U32}

/-! ### Timed runs -/

/-- `nat_timer_manage`: the callbacks run one after the other, in the order given. -/
def natTimerManage (s : NatState) (order : List Ptr) : Option NatState := order.foldlM fire s

/-- The entry that `nat_process_packet` finds by a lookup or creates. -/
def hit (o : Outcome) (s : NatState) (m : Mbuf) : Option Ptr :=
  match parse m with
  | none => none
  | some k => if k.dstIp = s.publicIp then s.revHash k else (s.fwdHash k).or o.malloc

structure TimedState where
  nat : NatState
  lastHit : Ptr → ℕ

inductive TimedEvent
  | packet (now : ℕ) (m : Mbuf) (o : Outcome)
  | manage (t : ℕ) (order : List Ptr)

/-- One step of a timed run.  `rte_timer_manage` runs the callbacks of exactly the timers that are due,
in some order. -/
def TimedStep (E : Env) (a : TimedState) (ev : TimedEvent) (b : TimedState) : Prop :=
  match ev with
  | .packet now m o => Step E a.nat (.packet now m o) b.nat ∧
      b.lastHit = fun p => if hit o a.nat m = some p then now else a.lastHit p
  | .manage t order => order.Perm (due a.nat.timers t) ∧ natTimerManage a.nat order = some b.nat ∧
      b.lastHit = a.lastHit

def timedInit (ip : U32) : TimedState := ⟨natInit ip, fun _ => 0⟩

/-! ### The callbacks of one call -/

/-- **Firing armed timers one after the other** removes their entries and nothing else. -/
theorem natTimerManage_run (hs : NoDangling s) (hnd : order.Nodup)
    (harm : ∀ p ∈ order, Armed s.timers p) :
    ∃ t, natTimerManage s order = some t ∧ Run (Step E) s (order.map .expire) t ∧
      (∀ p, t.heap p = if p ∈ order then none else s.heap p) ∧
      ∀ p d, (p, d) ∈ t.timers → (p, d) ∈ s.timers := by
  induction order generalizing s with
  | nil => exact ⟨s, rfl, .refl, fun p => by simp, fun _ _ h => h⟩
  | cons q order ih =>
    obtain ⟨hq, hnd⟩ := List.nodup_cons.1 hnd
    have hen : Enabled s (.expire q) := harm q (by simp)
    obtain ⟨u, hu⟩ := hs.progress (E := E) hen
    have hstep : Step E s (.expire q) u := ⟨hen, hu⟩
    cases hstep.effect with
    | @expired _ e he =>
      have harm' : ∀ p ∈ order, Armed (expired s q e).timers p := by
        intro p hp
        have hpq : p ≠ q := fun h => hq (h ▸ hp)
        rw [← armedCount_pos, armedCount_expired, if_neg hpq, armedCount_pos]
        exact harm p (by simp [hp])
      obtain ⟨t, ht, hrun, hheap, htim⟩ := ih (hs.of_step hstep) hnd harm'
      refine ⟨t, ?_, ?_, ?_, ?_⟩
      · unfold natTimerManage at ht ⊢
        rw [List.foldlM_cons, fire_eq he]
        exact ht
      · exact Run.cons_iff.2 ⟨_, hstep, hrun⟩
      · intro p
        rw [hheap, expired_heap]
        by_cases hp : p ∈ order
        · simp [hp]
        · by_cases hpq : p = q
          · subst hpq
            simp [hp]
          · simp [hp, hpq]
      · intro p d h
        exact (mem_rteTimerStop.1 (htim p d h)).1

/-! ### The invariant -/

/-- The deadline of every armed timer is the last hit of its entry plus the timeout. -/
structure OnTime (E : Env) (a : TimedState) : Prop where
  noDangling : NoDangling a.nat
  deadline : ∀ p d, (p, d) ∈ a.nat.timers → d = a.lastHit p + (timeout E).toNat

theorem onTime_timedInit (E : Env) (ip : U32) : OnTime E (timedInit ip) :=
  ⟨noDangling_natInit ip, fun _ _ h => by cases h⟩

/-- The entries with a due timer are the ones hit a timeout ago. -/
theorem OnTime.mem_due {a : TimedState} (ha : OnTime E a) {t : ℕ} (he : a.nat.heap p = some e) :
    p ∈ due a.nat.timers t ↔ a.lastHit p + (timeout E).toNat ≤ t := by
  rw [Rte.mem_due]
  constructor
  · rintro ⟨d, hd, hdt⟩
    rw [← ha.deadline p d hd]
    exact hdt
  · intro h
    have harm : Armed a.nat.timers p := by
      rw [← armedCount_pos, ha.noDangling.armed p, he]
      exact Nat.one_pos
    obtain ⟨d, hd⟩ := armed_iff.1 harm
    exact ⟨d, hd, ha.deadline p d hd ▸ h⟩

theorem OnTime.manage {a : TimedState} (ha : OnTime E a) {t : ℕ}
    (hperm : order.Perm (due a.nat.timers t)) :
    ∃ s, natTimerManage a.nat order = some s ∧ Run (Step E) a.nat (order.map .expire) s ∧
      (∀ p, s.heap p = if p ∈ order then none else a.nat.heap p) ∧
      ∀ p d, (p, d) ∈ s.timers → (p, d) ∈ a.nat.timers := by
  have hcount : ∀ p, armedCount a.nat.timers p ≤ 1 := by
    intro p
    rw [ha.noDangling.armed p]
    split <;> omega
  refine natTimerManage_run ha.noDangling (hperm.nodup_iff.2 (nodup_due hcount t)) ?_
  intro p hp
  obtain ⟨d, hd, -⟩ := Rte.mem_due.1 (hperm.mem_iff.1 hp)
  exact armed_iff.2 ⟨d, hd⟩

theorem deadline_rteTimerReset {l : RteTimers Ptr} {q : Ptr} {d d' : ℕ}
    (h : (p, d) ∈ rteTimerReset l q d') : if q = p then d = d' else (p, d) ∈ l := by
  rcases mem_rteTimerReset.1 h with ⟨hl, hpq⟩ | ⟨rfl, hd⟩
  · rw [if_neg (Ne.symm hpq)]
    exact hl
  · rw [if_pos rfl]
    exact hd

theorem deadline_refresh {q : Ptr} {d : ℕ} (h : (p, d) ∈ (refresh E now s q).timers) :
    if q = p then d = now + (timeout E).toNat else (p, d) ∈ s.timers := by
  have hd := deadline_rteTimerReset h
  by_cases hqp : q = p
  · rwa [if_pos hqp] at hd ⊢
  · rw [if_neg hqp] at hd ⊢
    exact (mem_rteTimerStop.1 hd).1

theorem packet_deadline (h : natProcessPacket E now o s m = some r) {d : ℕ}
    (hd : (p, d) ∈ r.state.timers) :
    if hit o s m = some p then d = now + (timeout E).toNat else (p, d) ∈ s.timers := by
  unfold hit
  cases natProcessPacket_cases h with
  | ignored hk =>
    rw [hk]
    exact hd
  | unmatched hk hdst hq =>
    simp only [hk, if_pos hdst, hq]
    exact hd
  | noMemory hk hdst hq hm =>
    simp only [hk, if_neg hdst, hq, hm, Option.or_none]
    exact hd
  | inbound hk hdst hq =>
    simp only [hk, if_pos hdst, hq, Option.some.injEq]
    exact deadline_refresh hd
  | outbound hk hdst hq =>
    simp only [hk, if_neg hdst, hq, Option.some_or, Option.some.injEq]
    exact deadline_refresh hd
  | opened hk hdst hq hm =>
    simp only [hk, if_neg hdst, hq, hm, Option.none_or, Option.some.injEq]
    exact deadline_rteTimerReset hd

theorem OnTime.of_step {a b : TimedState} {ev : TimedEvent} (ha : OnTime E a)
    (h : TimedStep E a ev b) : OnTime E b := by
  cases ev with
  | packet now m o =>
    obtain ⟨hst, hhit⟩ := h
    refine ⟨ha.noDangling.of_step hst, ?_⟩
    intro p d hd
    obtain ⟨r, hr, hrb⟩ := Option.map_eq_some_iff.1 hst.2
    rw [← hrb] at hd
    have hd' := packet_deadline hr hd
    rw [hhit]
    by_cases hp : hit o a.nat m = some p
    · rw [if_pos hp] at hd'
      simp only [if_pos hp]
      exact hd'
    · rw [if_neg hp] at hd'
      simp only [if_neg hp]
      exact ha.deadline p d hd'
  | manage t order =>
    obtain ⟨hperm, hman, hhit⟩ := h
    obtain ⟨s, hs, hrun, -, htim⟩ := ha.manage (E := E) hperm
    obtain rfl := Option.some.inj (hs.symm.trans hman)
    refine ⟨hrun.invariant ha.noDangling fun _ _ _ hc hst => hc.of_step hst, ?_⟩
    intro p d hd
    rw [hhit]
    exact ha.deadline p d (htim p d hd)

theorem run_onTime {evs : List TimedEvent} {a : TimedState}
    (h : Run (TimedStep E) (timedInit ip) evs a) : OnTime E a :=
  h.invariant (onTime_timedInit E ip) fun _ _ _ ha hst => ha.of_step hst

/-- **The idle timeout.**  In every state that a timed run reaches, a call of `nat_timer_manage` at the
reading `t` runs to its end, in whatever order the callbacks come; it removes an entry exactly when the
last time it was created or found is a timeout or more before `t`, and leaves the other entries as they
are.  A packet removes no entry. -/
theorem idle_timeout {evs : List TimedEvent} {a : TimedState}
    (h : Run (TimedStep E) (timedInit ip) evs a) :
    (∀ t order, order.Perm (due a.nat.timers t) → ∃ s, natTimerManage a.nat order = some s ∧
      ∀ p e, a.nat.heap p = some e →
        (s.heap p = none ↔ a.lastHit p + (timeout E).toNat ≤ t) ∧
        (t < a.lastHit p + (timeout E).toNat → s.heap p = some e)) ∧
    ∀ now m o b, TimedStep E a (.packet now m o) b →
      ∀ p e, a.nat.heap p = some e → b.nat.heap p = some e := by
  have ha := run_onTime h
  constructor
  · intro t order hperm
    obtain ⟨s, hs, -, hheap, -⟩ := ha.manage (E := E) hperm
    refine ⟨s, hs, ?_⟩
    intro p e he
    have hdue : p ∈ order ↔ a.lastHit p + (timeout E).toNat ≤ t := by
      rw [hperm.mem_iff, ha.mem_due he]
    rw [hheap p, ← hdue]
    constructor
    · by_cases hp : p ∈ order
      · simp [hp]
      · simp [hp, he]
    · intro hlt
      rw [if_neg fun hp => absurd (hdue.1 hp) (by omega), he]
  · intro now m o b hst p e he
    exact hst.1.heap_of_ne he (by simp)

/-- `flowA` and `flowB` have opened their entries at 0 and at 5; after 30 seconds the entry of `flowA` is
removed, and the one of `flowB` is not. -/
theorem idle_timeout_flowA :
    ∃ s, natTimerManage (stateAB ghz (success 0) (success 1)) [0] = some s ∧ s.heap 0 = none ∧
      s.heap 1 = some (freshEntry (stateA ghz (success 0)) flowB) := by
  have hA : hit (success 0) (natInit mainPublicIp) (keyFrame flowA) = some 0 := by
    unfold hit
    rw [show parse (keyFrame flowA) = some flowA from parse_webFlow ..]
    decide
  have hB : hit (success 1) (stateA ghz (success 0)) (keyFrame flowB) = some 1 := by
    unfold hit
    rw [show parse (keyFrame flowB) = some flowB from parse_webFlow ..]
    decide
  have h₁ : TimedStep ghz (timedInit mainPublicIp) (.packet 0 (keyFrame flowA) (success 0))
      ⟨stateA ghz (success 0), fun p => if some 0 = some p then 0 else 0⟩ :=
    ⟨step_flowA (success 0) rfl, by rw [← hA]; rfl⟩
  have h₂ : TimedStep ghz ⟨stateA ghz (success 0), fun p => if some 0 = some p then 0 else 0⟩
      (.packet 5 (keyFrame flowB) (success 1)) ⟨stateAB ghz (success 0) (success 1),
        fun p => if some 1 = some p then 5 else if some 0 = some p then 0 else 0⟩ :=
    ⟨step_flowB (success 0) (success 1) rfl, by rw [← hB]⟩
  obtain ⟨s, hs, hheap⟩ := (idle_timeout ((Run.refl.snoc h₁).snoc h₂)).1 30000000000 [0]
    (by decide)
  exact ⟨s, hs, (hheap 0 _ rfl).1.2 (by decide), (hheap 1 _ rfl).2 (by decide)⟩

end DpdkBeginners.Napt
