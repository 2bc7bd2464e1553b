import DpdkBeginners.Napt.PortWindows
import DpdkBeginners.Napt.RoundTrip
import DpdkBeginners.Napt.Timeout
import Mathlib.Data.Finset.Card

/-!
# How much traffic the NAT stands

* An entry is live only because of a packet within the timeout before the last `nat_timer_manage`, and a packet
  keeps one entry live, so there are no more entries than there were such packets (`live_entries_bound`).
* The port allocator hands out a port again after a whole cycle.  As long as no entry outlives the opening of a
  cycle of others, no two live entries have the same port, and all replies reach their clients
  (`replies_reach_of_young`).
-/

namespace DpdkBeginners.Napt

open DpdkBeginners.Rte DpdkBeginners.Lib

variable {E : Env} {now c t : ℕ} {o : Outcome} {s : NatState} {m : Mbuf} {p : Ptr} {e : NatEntry}
  {ip : U32} {a b : TimedState} {ev : TimedEvent} {evs : List TimedEvent}

/-! ### How many entries there are -/

/-- A packet within the timeout before `c`. -/
def TimedEvent.recent (E : Env) (c : ℕ) : TimedEvent → Bool
  | .packet now _ _ => c < now + (timeout E).toNat
  | .manage _ _ => false

/-- How many packets came within the timeout before `c`. -/
def recentPackets (E : Env) (c : ℕ) (evs : List TimedEvent) : ℕ := evs.countP (TimedEvent.recent E c)

/-- The entries that were hit within the timeout before `c` are no more than `n`. -/
def HitBy (E : Env) (c : ℕ) (a : TimedState) (n : ℕ) : Prop :=
  ∀ S : Finset Ptr, (∀ p ∈ S, a.nat.heap p ≠ none ∧ c < a.lastHit p + (timeout E).toNat) → S.card ≤ n

theorem hitBy_timedInit (E : Env) (c : ℕ) (ip : U32) : HitBy E c (timedInit ip) 0 := by
  intro S hS
  have hempty : S = ∅ := Finset.eq_empty_of_forall_notMem fun p hp => (hS p hp).1 rfl
  rw [hempty, Finset.card_empty]

theorem Step.heap_of_not_hit {t : NatState} (h : Step E s (.packet now m o) t) (hp : hit o s m ≠ some p) :
    t.heap p = s.heap p := by
  cases h.effect with
  | dropped => rfl
  | refreshed => rfl
  | @created _ _ _ k q hk hd hf hm _ =>
    have hq : hit o s m = some q := by simp [hit, hk, hd, hf, hm]
    rw [created_heap, Function.update_of_ne]
    rintro rfl
    exact hp hq

theorem HitBy.of_step {n : ℕ} (ha : HitBy E c a n) (hon : OnTime E a) (h : TimedStep E a ev b) :
    HitBy E c b (n + recentPackets E c [ev]) := by
  intro S hS
  cases ev with
  | packet now m o =>
    obtain ⟨hst, hhit⟩ := h
    have hold : ∀ p ∈ S, hit o a.nat m ≠ some p →
        a.nat.heap p ≠ none ∧ c < a.lastHit p + (timeout E).toNat := by
      intro p hp hne
      have hlive := hS p hp
      rwa [hst.heap_of_not_hit hne, congrFun hhit p, if_neg hne] at hlive
    by_cases hq : ∃ q ∈ S, hit o a.nat m = some q
    · obtain ⟨q, hq, hhitq⟩ := hq
      have hrecent : c < now + (timeout E).toNat := by
        have hlive := (hS q hq).2
        rwa [congrFun hhit q, if_pos hhitq] at hlive
      have hcount : recentPackets E c [.packet now m o] = 1 := by
        simp [recentPackets, TimedEvent.recent, hrecent]
      have hle : (S.erase q).card ≤ n := ha _ fun p hp =>
        hold p (Finset.mem_of_mem_erase hp) fun heq =>
          Finset.ne_of_mem_erase hp (Option.some.inj (heq.symm.trans hhitq))
      rw [Finset.card_erase_of_mem hq] at hle
      omega
    · have hle : S.card ≤ n := ha S fun p hp => hold p hp fun heq => hq ⟨p, hp, heq⟩
      omega
  | manage t order =>
    obtain ⟨hperm, hman, hhit⟩ := h
    obtain ⟨s, hs, -, hheap, -⟩ := hon.manage (E := E) hperm
    obtain rfl := Option.some.inj (hs.symm.trans hman)
    have hle : S.card ≤ n := ha S fun p hp => by
      have hlive := hS p hp
      rw [hhit] at hlive
      refine ⟨fun hnone => hlive.1 ?_, hlive.2⟩
      rw [hheap, hnone, ite_self]
    omega

theorem run_hitBy (h : Run (TimedStep E) (timedInit ip) evs a) (c : ℕ) :
    HitBy E c a (recentPackets E c evs) := by
  induction h with
  | refl => exact hitBy_timedInit E c ip
  | @snoc a b evs ev hrun hst ih =>
    have hstep := ih.of_step (run_onTime hrun) hst
    unfold recentPackets at hstep ⊢
    rwa [List.countP_append]

/-- **A bound on the entries.**  After a call of `nat_timer_manage` at the reading `t` there are no more entries
than packets were processed whose readings are within the timeout before `t`. -/
theorem live_entries_bound {order : List Ptr} (h : Run (TimedStep E) (timedInit ip) evs a)
    (hman : TimedStep E a (.manage t order) b) (S : Finset Ptr) (hS : ∀ p ∈ S, b.nat.heap p ≠ none) :
    S.card ≤ recentPackets E t evs := by
  have hb := run_hitBy (h.snoc hman) t
  obtain ⟨hperm, hman, hhit⟩ := hman
  have ha := run_onTime h
  obtain ⟨s, hs, -, hheap, -⟩ := ha.manage (E := E) hperm
  obtain rfl := Option.some.inj (hs.symm.trans hman)
  have hcount : recentPackets E t (evs ++ [.manage t order]) = recentPackets E t evs := by
    simp [recentPackets, List.countP_append, TimedEvent.recent]
  rw [hcount] at hb
  refine hb S fun p hp => ⟨hS p hp, ?_⟩
  -- what the call has left was hit within the timeout
  have hlive := hS p hp
  rw [hheap] at hlive
  by_cases hmem : p ∈ order
  · rw [if_pos hmem] at hlive
    exact absurd rfl hlive
  · rw [if_neg hmem] at hlive
    obtain ⟨e, he⟩ := Option.ne_none_iff_exists'.1 hlive
    rw [hperm.mem_iff, ha.mem_due he, not_le] at hmem
    rwa [hhit]

/-- `flowA` and `flowB` have sent a packet each, at 0 and at 5; 30 seconds after the first there is one entry at
most. -/
theorem live_entries_bound_flowAB : ∃ b : TimedState, ∀ S : Finset Ptr, (∀ p ∈ S, b.nat.heap p ≠ none) →
    S.card ≤ 1 := by
  have hA : hit (success 0) (natInit mainPublicIp) (keyFrame flowA) = some 0 := by
    unfold hit
    rw [show parse (keyFrame flowA) = some flowA from parse_webFlow ..]
    decide
  have hB : hit (success 1) (stateA ghz (success 0)) (keyFrame flowB) = some 1 := by
    unfold hit
    rw [show parse (keyFrame flowB) = some flowB from parse_webFlow ..]
    decide
  have h₁ : TimedStep ghz (timedInit mainPublicIp) (.packet 0 (keyFrame flowA) (success 0))
      ⟨stateA ghz (success 0), fun p => if some 0 = some p then 0 else 0⟩ :=
    ⟨step_flowA (success 0) rfl, by rw [← hA]; rfl⟩
  have h₂ : TimedStep ghz ⟨stateA ghz (success 0), fun p => if some 0 = some p then 0 else 0⟩
      (.packet 5 (keyFrame flowB) (success 1)) ⟨stateAB ghz (success 0) (success 1),
        fun p => if some 1 = some p then 5 else if some 0 = some p then 0 else 0⟩ :=
    ⟨step_flowB (success 0) (success 1) rfl, by rw [← hB]⟩
  have hrun := (Run.refl.snoc h₁).snoc h₂
  have hdue : List.Perm [0] (due (stateAB ghz (success 0) (success 1)).timers 30000000000) := by decide
  obtain ⟨s, hs, -⟩ := (run_onTime hrun).manage hdue
  have hman : TimedStep ghz _ (.manage 30000000000 [0]) ⟨s, _⟩ := ⟨hdue, hs, rfl⟩
  exact ⟨_, fun S hS => (live_entries_bound hrun hman S hS).trans (by decide)⟩

/-! ### Ports -/

/-- Every live entry is one of those that were opened last, fewer than a cycle of ports. -/
def Young (a : NatState × List NatEntry) : Prop :=
  ∀ p e, a.1.heap p = some e → e ∈ a.2.drop (a.2.length + 1 - portCycle)

/-- A step of a run in which no entry outlives the opening of a cycle of others, and in which `rte_malloc` and the
inserts succeed. -/
def YoungStep (E : Env) (a : NatState × List NatEntry) (ev : Event) (b : NatState × List NatEntry) : Prop :=
  LogStep E a ev b ∧ ev.Succeeds ∧ Young a

/-- **The next port is not in use**, when every live entry is one of the last. -/
theorem Young.port_ne {evs : List Event} {log : List NatEntry}
    (h : Run (LogStep E) (natInit ip, []) evs (s, log)) (hyoung : Young (s, log)) (he : s.heap p = some e) :
    e.publicPort ≠ rteCpuToBe16 (nextPort s.currentPort) := by
  have hmem : e ∈ log.drop (log.length + 1 - portCycle) := hyoung p e he
  obtain ⟨j, hj⟩ := List.mem_iff_getElem?.1 hmem
  rw [List.getElem?_drop] at hj
  obtain ⟨hlt, -⟩ := List.getElem?_eq_some_iff.1 hj
  intro heq
  rw [run_port h hj, (run_ports h).1, ← Function.iterate_succ_apply' nextPort] at heq
  exact iterate_nextPort_ne inCycle_minPort (by omega) (by omega) (bswap16_injective heq)

theorem run_clashFree_of_young {evs : List Event} {a : NatState × List NatEntry}
    (h : Run (YoungStep E) (natInit ip, []) evs a) : Run (ClashFreeStep E) (natInit ip) evs a.1 := by
  induction h with
  | refl => exact .refl
  | @snoc a b evs ev hrun hst ih =>
    obtain ⟨hlog, hsucc, hyoung⟩ := hst
    have hlogs : Run (LogStep E) (natInit ip, []) evs a := hrun.mono fun _ _ _ h => h.1
    have hflows : FlowEntries a.1 := run_flowEntries (ih.mono fun _ _ _ h => h.1.1)
    refine ih.snoc ⟨⟨hlog.1, hsucc⟩, ?_⟩
    cases ev with
    | packet now m o =>
      intro k _ _ _ p e he heq
      obtain ⟨k', port, rfl, -, -⟩ := hflows p e he
      exact hyoung.port_ne hlogs he (congrArg NatKey.dstPort heq)
    | expire => trivial

/-- **All replies reach their clients** as long as no entry outlives the opening of a cycle of others: every packet from
the remote endpoint of a live entry to its public endpoint is rewritten to its client, and every packet of
its client to this remote endpoint leaves from this public endpoint. -/
theorem replies_reach_of_young {evs : List Event} {log : List NatEntry}
    (h : Run (YoungStep E) (natInit ip, []) evs (s, log)) (he : s.heap p = some e) :
    RepliesReach E s e.fwdKey e.publicPort ∧
    ∀ now o m, parse m = some e.fwdKey → ∃ r, natProcessPacket E now o s m = some r ∧ r.ret = 0 ∧
      r.mbuf.srcAddr = e.publicIp ∧ r.mbuf.srcPort = e.publicPort := by
  have hrun : Run (ClashFreeStep E) (natInit ip) evs s := run_clashFree_of_young h
  have hf : FwdExact s := run_fwdExact (run_insertStep_of_clashFree hrun)
  have hr : RevExact s := run_revExact hrun
  have hs : FlowEntries s := run_flowEntries (hrun.mono fun _ _ _ hst => hst.1.1)
  have hentry : (Translation hf hr).symm e.revKey = some e.fwdKey := by
    rw [PEquiv.eq_some_iff]
    exact Translation.of_entry he
  obtain ⟨k, port, rfl, hd, -⟩ := hs p e he
  refine ⟨fun now o m hm => natProcessPacket_of_symm hs hm hentry, fun now o m hm => ?_⟩
  exact ⟨_, natProcessPacket_outbound hm hd (hf.lookup he) he, rfl, rewriteOut_srcAddr .., rewriteOut_srcPort ..⟩

theorem replies_reach_of_young_flowA :
    RepliesReach ghz (stateAB ghz (success 0) (success 1)) flowA (rteCpuToBe16 1025) := by
  let e₁ := freshEntry (natInit mainPublicIp) flowA
  let e₂ := freshEntry (stateA ghz (success 0)) flowB
  have hA : YoungStep ghz (natInit mainPublicIp, []) (.packet 0 (keyFrame flowA) (success 0))
      (stateA ghz (success 0), [e₁]) :=
    ⟨⟨step_flowA (success 0) rfl, [e₁], .entry (p := 0) rfl rfl, rfl⟩,
      ⟨Option.some_ne_none 0, rfl, rfl⟩, fun _ e he => absurd he.symm (Option.some_ne_none e)⟩
  have hyoung : Young (stateA ghz (success 0), [e₁]) := by
    intro p e he
    by_cases hp : p = 0
    · subst hp
      obtain rfl := Option.some.inj he
      have hdrop : [e₁].length + 1 - portCycle = 0 := by decide
      rw [hdrop]
      exact List.mem_singleton_self e₁
    · simp [stateA, hp, natInit] at he
  have hB : YoungStep ghz (stateA ghz (success 0), [e₁]) (.packet 5 (keyFrame flowB) (success 1))
      (stateAB ghz (success 0) (success 1), [e₁, e₂]) :=
    ⟨⟨step_flowB (success 0) (success 1) rfl, [e₂], .entry (p := 1) rfl rfl, rfl⟩,
      ⟨Option.some_ne_none 1, rfl, rfl⟩, hyoung⟩
  have he : (stateAB ghz (success 0) (success 1)).heap 0 = some e₁ := rfl
  have hreach := (replies_reach_of_young ((Run.refl.snoc hA).snoc hB) he).1
  have hport : e₁.publicPort = rteCpuToBe16 1025 := by decide
  have hkey : e₁.fwdKey = flowA := by decide
  rwa [hport, hkey] at hreach

end DpdkBeginners.Napt
