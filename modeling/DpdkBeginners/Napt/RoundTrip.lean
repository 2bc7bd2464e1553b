import DpdkBeginners.Napt.Flows

/-!
# The round trip of a flow

What the NAT is for, in its own terms, is `Translation`: a partial bijection between the flows of the
private clients and the keys of the replies to them.  The two tables represent one when both are exact
(`FwdExact`, `RevExact`), and then the code computes it: an outbound packet of a flow leaves under the
key the translation gives (`Translation.of_entry`), and an inbound packet is accepted and rewritten to
the flow that the inverse gives (`natProcessPacket_of_symm`).

`fwd_hash` is exact whenever the inserts succeed.  `rev_hash` stays exact as long as no packet opens
an entry under the reverse key of a live one (`NoClash`), which the port allocator does not look at.
-/

namespace DpdkBeginners.Napt

open DpdkBeginners.Rte DpdkBeginners.Lib

variable {E : Env} {now : ℕ} {o : Outcome} {s t u : NatState} {m : Mbuf} {k k' : NatKey} {p q : Ptr}
  {e : NatEntry} {ev : Event} {evs pre post : List Event} {ip : U32} {r : Result} {port : U16}

/-! ### The translation -/

/-- `rev_hash` holds exactly the live entries. -/
abbrev RevExact (s : NatState) : Prop := Exact s.heap NatEntry.revKey s.revHash

/-- **The translation** that two exact tables represent: from flows to the keys of their replies. -/
def Translation (hf : FwdExact s) (hr : RevExact s) : NatKey ≃. NatKey :=
  hf.toPEquiv.trans hr.toPEquiv.symm

section Translation

variable {hf : FwdExact s} {hr : RevExact s}

theorem translation_eq_some :
    Translation hf hr k = some k' ↔ ∃ p e, s.heap p = some e ∧ e.fwdKey = k ∧ e.revKey = k' := by
  unfold Translation
  simp only [PEquiv.trans_eq_some, Exact.toPEquiv_apply, Exact.toPEquiv_symm_apply,
    Option.map_eq_some_iff]
  constructor
  · rintro ⟨p, hp, e, he, hk'⟩
    obtain ⟨e', he', hk⟩ := hf.sound k p hp
    obtain rfl := Option.some.inj (he.symm.trans he')
    exact ⟨p, e, he, hk, hk'⟩
  · rintro ⟨p, e, he, rfl, hk'⟩
    exact ⟨p, hf.lookup he, e, he, hk'⟩

theorem Translation.of_entry (he : s.heap p = some e) :
    Translation hf hr e.fwdKey = some e.revKey :=
  translation_eq_some.2 ⟨p, e, he, rfl, rfl⟩

/-- **An inbound packet goes where the inverse of the translation says.** -/
theorem natProcessPacket_of_symm (hs : FlowEntries s) (hm : parse m = some k')
    (hk : (Translation hf hr).symm k' = some k) :
    ∃ r, natProcessPacket E now o s m = some r ∧ r.ret = 0 ∧
      r.mbuf.header = { m.header with dstAddr := k.srcIp, dstPort := k.srcPort } := by
  obtain ⟨p, e, he, rfl, rfl⟩ := translation_eq_some.1 ((PEquiv.eq_some_iff _).1 hk)
  obtain ⟨f, port, rfl, -, -⟩ := hs p e he
  exact ⟨_, natProcessPacket_inbound hm rfl (hr.lookup he) he, rfl, rewriteIn_header E m _⟩

end Translation

/-! ### Runs without a clash of reverse keys -/

/-- No live entry has the reverse key of the entry that the packet would open: the same remote
endpoint and protocol, with the port that follows `current_port`. -/
def NoClash (s : NatState) : Event → Prop
  | .packet _ m _ => ∀ k, parse m = some k → k.dstIp ≠ s.publicIp → s.fwdHash k = none →
      ∀ p e, s.heap p = some e →
        e.revKey ≠ replyKey s.publicIp (rteCpuToBe16 (nextPort s.currentPort)) k
  | .expire _ => True

/-- `rte_malloc` and the inserts of a packet succeed. -/
def Event.Succeeds : Event → Prop
  | .packet _ _ o => o.Succeeds
  | .expire _ => True

/-- The steps of a run in which `rte_malloc` and the inserts succeed. -/
def SuccessStep (E : Env) (s : NatState) (ev : Event) (t : NatState) : Prop :=
  Step E s ev t ∧ ev.Succeeds

/-- The steps that moreover open no entry under the reverse key of a live one. -/
def ClashFreeStep (E : Env) (s : NatState) (ev : Event) (t : NatState) : Prop :=
  SuccessStep E s ev t ∧ NoClash s ev

theorem SuccessStep.insertStep (h : SuccessStep E s ev t) : InsertStep E s ev t := by
  refine ⟨h.1, ?_⟩
  cases ev with
  | packet => exact h.2.2
  | expire => trivial

theorem revExact_natInit (ip : U32) : RevExact (natInit ip) := exact_empty fun _ => rfl

theorem RevExact.of_step (hs : RevExact s) (h : ClashFreeStep E s ev t) : RevExact t := by
  obtain ⟨⟨hst, hsucc⟩, hclash⟩ := h
  cases hst.effect with
  | dropped => exact hs
  | refreshed => exact hs
  | @created _ _ o k q hk hd hf _ hq =>
    unfold RevExact
    rw [created_revHash hsucc.2.2, created_heap]
    exact hs.add hq (hclash k hk hd hf)
  | expired hq => exact hs.free hq

theorem run_insertStep_of_clashFree (h : Run (ClashFreeStep E) s evs t) : Run (InsertStep E) s evs t :=
  h.mono fun _ _ _ hst => hst.1.insertStep

theorem run_revExact (h : Run (ClashFreeStep E) (natInit ip) evs s) : RevExact s :=
  h.invariant (revExact_natInit ip) fun _ _ _ ha hst => ha.of_step hst

/-! ### The round trip -/

/-- In a run from `natInit ip` to `t` by steps of `R`, an outbound packet of the flow `k` was sent out
with the public port `port`, and the entry it left by has not expired since. -/
def Sent (E : Env) (R : NatState → Event → NatState → Prop) (ip : U32) (k : NatKey) (port : U16)
    (t : NatState) : Prop :=
  ∃ pre now m o post s r q, Run R (natInit ip) pre s ∧ R s (.packet now m o) r.state ∧
    Run R r.state post t ∧ natProcessPacket E now o s m = some r ∧ r.ret = 0 ∧
    parse m = some k ∧ k.dstIp ≠ ip ∧ r.mbuf.srcPort = port ∧ r.state.fwdHash k = some q ∧
    Event.expire q ∉ post

/-- Every packet from the remote endpoint of the flow `k` to the public endpoint with that port is
accepted, and rewritten to exactly the client of `k`. -/
def RepliesReach (E : Env) (t : NatState) (k : NatKey) (port : U16) : Prop :=
  ∀ now o m, parse m = some (replyKey t.publicIp port k) →
    ∃ r, natProcessPacket E now o t m = some r ∧ r.ret = 0 ∧
      r.mbuf.header = { m.header with dstAddr := k.srcIp, dstPort := k.srcPort }

theorem Sent.entry (h : Sent E (InsertStep E) ip k port t) :
    ∃ p e, t.heap p = some e ∧ e.fwdKey = k ∧ e.publicPort = port ∧
      ∃ evs, Run (InsertStep E) (natInit ip) evs t := by
  obtain ⟨pre, now, m, o, post, s, r, q, hpre, hst, hpost, hr, hret, hk, hd, rfl, hq, hexp⟩ := h
  have hip : s.publicIp = ip := run_publicIp (run_step_of_insertStep hpre)
  obtain ⟨p, e, hp, he, rfl, -, hport⟩ :=
    outbound_sent (run_fwdExact hpre) hr hret hk (hip ▸ hd) hst.2.1
  obtain rfl := Option.some.inj (hp.symm.trans hq)
  exact ⟨p, e, run_heap (run_step_of_insertStep hpost) he hexp, rfl, hport.symm, _,
    (hpre.snoc hst).append hpost⟩

theorem Sent.mono {R R' : NatState → Event → NatState → Prop} (hR : ∀ a ev b, R a ev b → R' a ev b)
    (h : Sent E R ip k port t) : Sent E R' ip k port t := by
  obtain ⟨pre, now, m, o, post, s, r, q, hpre, hst, hpost, hrest⟩ := h
  exact ⟨pre, now, m, o, post, s, r, q, hpre.mono hR, hR _ _ _ hst, hpost.mono hR, hrest⟩

theorem Sent.run {R : NatState → Event → NatState → Prop} (h : Sent E R ip k port t) :
    ∃ evs, Run R (natInit ip) evs t := by
  obtain ⟨pre, now, m, o, post, s, r, q, hpre, hst, hpost, -⟩ := h
  exact ⟨_, (hpre.snoc hst).append hpost⟩

/-- **The round trip.**  In a run whose steps open no entry under the reverse key of a live one, the
replies to a flow that was sent out with some public port reach its client at that port, for as long
as the entry of the flow has not expired. -/
theorem replies_reach_client (h : Sent E (ClashFreeStep E) ip k port t) : RepliesReach E t k port := by
  intro now o m hm
  obtain ⟨evs, hrun⟩ := h.run
  obtain ⟨p, e, he, rfl, rfl, -⟩ := (h.mono fun _ _ _ hst => hst.1.insertStep).entry
  have hf : FwdExact t := run_fwdExact (run_insertStep_of_clashFree hrun)
  have hr : RevExact t := run_revExact hrun
  have hs : FlowEntries t := run_flowEntries (hrun.mono fun _ _ _ hst => hst.1.1)
  have hkey : e.revKey = replyKey t.publicIp e.publicPort e.fwdKey := by
    obtain ⟨k, port, rfl, -, -⟩ := hs p e he
    rfl
  have hsymm : (Translation hf hr).symm (replyKey t.publicIp e.publicPort e.fwdKey) =
      some e.fwdKey := by
    rw [PEquiv.eq_some_iff, ← hkey]
    exact Translation.of_entry he
  exact natProcessPacket_of_symm hs hm hsymm

/-- The replies to `flowA` after `flowB` was sent out to the same server. -/
theorem replies_reach_client_flowA :
    RepliesReach ghz (stateAB ghz (success 0) (success 1)) flowA (rteCpuToBe16 1025) := by
  have h₁ : ClashFreeStep ghz (natInit mainPublicIp) (.packet 0 (keyFrame flowA) (success 0))
      (stateA ghz (success 0)) := by
    refine ⟨⟨step_flowA (success 0) rfl, by simp [success], rfl, rfl⟩, ?_⟩
    intro _ _ _ _ p e he
    cases he
  have h₂ : ClashFreeStep ghz (stateA ghz (success 0)) (.packet 5 (keyFrame flowB) (success 1))
      (stateAB ghz (success 0) (success 1)) := by
    refine ⟨⟨step_flowB (success 0) (success 1) rfl, by simp [success], rfl, rfl⟩, ?_⟩
    intro k hk _ _ p e he
    obtain rfl := Option.some.inj ((parse_webFlow ..).symm.trans hk)
    -- `flowA` has the port 1025, and `flowB` is about to get 1026
    obtain rfl : p = 0 := by
      by_contra hp
      simp [stateA, hp, natInit] at he
    obtain rfl := Option.some.inj he
    decide
  have hq : (stateA ghz (success 0)).fwdHash flowA = some 0 := by decide
  refine replies_reach_client ⟨[], 0, keyFrame flowA, success 0, _, natInit mainPublicIp, _, 0, .refl,
    h₁, Run.refl.snoc h₂, natProcessPacket_opened (parse_webFlow ..) (by decide) rfl rfl, rfl,
    parse_webFlow .., by decide, ?_, hq, by simp⟩
  rw [rewriteOut_srcPort]
  decide

end DpdkBeginners.Napt
