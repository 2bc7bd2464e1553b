import DpdkBeginners.Napt.Effect

/-!
# Flows and their entries

* `FlowEntries`: every entry is the entry of one outbound flow, with the public address and the public
  port it was given; its reverse key is the key of the replies to that flow.
* `entry_origin`: an entry of a reached state was opened by a packet of its flow earlier in the run,
  and its timer has not expired since.
* `Exact` forward table: when the inserts succeed, `fwd_hash` holds exactly the live entries.

From these follow what an inbound packet can reach (`endpoint_dependent_filtering`) and that a flow
keeps its public endpoint as long as its entry lives (`outbound_mapping_stable`).
-/

namespace DpdkBeginners.Napt

open DpdkBeginners.Rte DpdkBeginners.Lib

variable {E : Env} {now : ℕ} {o : Outcome} {s t u : NatState} {m : Mbuf} {k : NatKey} {p q : Ptr}
  {e : NatEntry} {ev : Event} {evs pre post : List Event} {ip : U32} {r : Result}

/-! ### Every entry is the entry of a flow -/

/-- Every entry is the entry of an outbound TCP or UDP flow. -/
def FlowEntries (s : NatState) : Prop :=
  ∀ p e, s.heap p = some e →
    ∃ k port, e = flowEntry s.publicIp port k ∧ k.dstIp ≠ s.publicIp ∧ IsTcpUdp k.proto

theorem flowEntries_natInit (ip : U32) : FlowEntries (natInit ip) := fun _ _ h => by cases h

theorem FlowEntries.of_step (hs : FlowEntries s) (h : Step E s ev t) : FlowEntries t := by
  intro p e he
  rw [h.publicIp]
  cases h.effect with
  | dropped => exact hs p e he
  | refreshed => exact hs p e he
  | @created _ m _ k q hk hd _ _ _ =>
    rw [created_heap] at he
    by_cases hpq : p = q
    · subst hpq
      rw [Function.update_self] at he
      obtain rfl := Option.some.inj he
      exact ⟨k, _, rfl, hd, parse_proto hk⟩
    · rw [Function.update_of_ne hpq] at he
      exact hs p e he
  | @expired q _ _ =>
    rw [expired_heap] at he
    by_cases hpq : p = q
    · subst hpq
      simp at he
    · rw [Function.update_of_ne hpq] at he
      exact hs p e he

theorem run_flowEntries (h : Run (Step E) (natInit ip) evs s) : FlowEntries s :=
  h.invariant (flowEntries_natInit ip) fun _ _ _ ha hst => ha.of_step hst

/-! ### Where an entry comes from -/

theorem Effect.opened (h : Effect E s ev t) (hs : s.heap p ≠ some e) (ht : t.heap p = some e) :
    ∃ now m o, ev = .packet now m o ∧ parse m = some e.fwdKey ∧ e.fwdKey.dstIp ≠ s.publicIp ∧
      s.heap p = none ∧ e = freshEntry s e.fwdKey ∧
      natProcessPacket E now o s m = some ⟨0, rewriteOut E m e, t⟩ := by
  cases h with
  | dropped => exact absurd ht hs
  | refreshed => exact absurd ht hs
  | @created now m o k q hk hd hf hm hq =>
    rw [created_heap] at ht
    by_cases hpq : p = q
    · subst hpq
      rw [Function.update_self] at ht
      obtain rfl := Option.some.inj ht
      exact ⟨now, m, o, rfl, hk, hd, hq, rfl, natProcessPacket_opened hk hd hf hm⟩
    · rw [Function.update_of_ne hpq] at ht
      exact absurd ht hs
  | @expired q _ _ =>
    rw [expired_heap] at ht
    by_cases hpq : p = q
    · subst hpq
      simp at ht
    · rw [Function.update_of_ne hpq] at ht
      exact absurd ht hs

/-- The entry `e` at `p` was opened in the run `evs` by the packet `m`, which left with the public
port of `e`, and the timer of `p` has not expired since. -/
def OpenedBy (E : Env) (ip : U32) (evs : List Event) (p : Ptr) (e : NatEntry) (m : Mbuf) : Prop :=
  ∃ pre now o post s r, evs = pre ++ .packet now m o :: post ∧
    Run (Step E) (natInit ip) pre s ∧ s.heap p = none ∧
    natProcessPacket E now o s m = some r ∧ r.ret = 0 ∧ r.mbuf.srcPort = e.publicPort ∧
    r.state.heap p = some e ∧ Event.expire p ∉ post

/-- **Where an entry comes from**: from a packet of its flow, after which its timer has not expired. -/
theorem entry_origin (h : Run (Step E) (natInit ip) evs s) (he : s.heap p = some e) :
    ∃ m, parse m = some e.fwdKey ∧ e.fwdKey.dstIp ≠ ip ∧ OpenedBy E ip evs p e m := by
  have h₀ : ¬ (natInit ip).heap p = some e := by simp [natInit]
  obtain ⟨pre, ev, post, a, b, rfl, hpre, hst, ha, hb, hpost⟩ :=
    h.origin (P := fun a => a.heap p = some e) h₀ he
  obtain ⟨now, m, o, rfl, hk, hd, hp, -, hr⟩ := hst.effect.opened ha hb
  rw [run_publicIp hpre] at hd
  have hexp : Event.expire p ∉ post := by
    intro hmem
    refine hpost.forall_mem (Q := fun f => f ≠ .expire p) ?_ _ hmem rfl
    rintro c f d ⟨hcd, hc, hd'⟩ rfl
    -- an expiry of `p` would have removed the entry
    cases hcd.effect with
    | expired => simp at hd'
  exact ⟨m, hk, hd, pre, now, o, post, a, _, rfl, hpre, hp, hr, rfl, rewriteOut_srcPort E m e, hb,
    hexp⟩

/-! ### Inbound packets -/

/-- The entry that `rev_hash` holds for an inbound packet is of a flow to the sender of the packet,
and has the port that the packet is addressed to. -/
theorem revHash_entry (h : Run (Step E) (natInit ip) evs s) (hk : s.revHash (keyOf m) = some p) :
    ∃ e, s.heap p = some e ∧
      e.fwdKey = ⟨e.privateIp, m.srcAddr, e.privatePort, m.srcPort, m.nextProtoId⟩ ∧
      e.publicPort = m.dstPort := by
  obtain ⟨e, he, hrev⟩ := (run_noDangling h).rev _ _ hk
  obtain ⟨k, port, rfl, -, -⟩ := run_flowEntries h p e he
  refine ⟨_, he, ?_, ?_⟩
  · have h₁ : k.dstIp = m.srcAddr := congrArg NatKey.srcIp hrev
    have h₂ : k.dstPort = m.srcPort := congrArg NatKey.srcPort hrev
    have h₃ : k.proto = m.nextProtoId := congrArg NatKey.proto hrev
    rw [← h₁, ← h₂, ← h₃]
    rfl
  · exact congrArg NatKey.dstPort hrev

/-- **Endpoint-dependent filtering.**  In every state that a run reaches, a packet addressed to the
public address either is dropped, and then nothing has changed, not even its bytes; or it belongs to
an entry that a packet of the run opened, sent from some private endpoint to exactly the sender of
this packet and given the port that this packet is addressed to, and that has not expired since; then
it is rewritten to that private endpoint, and the tables, the entries and the port counter are as
before. -/
theorem endpoint_dependent_filtering (h : Run (Step E) (natInit ip) evs s) (hd : m.dstAddr = ip)
    (now : ℕ) (o : Outcome) :
    natProcessPacket E now o s m = some ⟨-1, m, s⟩ ∨
    ∃ m' t p e m₀, natProcessPacket E now o s m = some ⟨0, m', t⟩ ∧
      s.heap p = some e ∧ OpenedBy E ip evs p e m₀ ∧ m.srcAddr ≠ ip ∧
      parse m₀ = some ⟨e.privateIp, m.srcAddr, e.privatePort, m.srcPort, m.nextProtoId⟩ ∧
      e.publicPort = m.dstPort ∧
      m'.header = { m.header with dstAddr := e.privateIp, dstPort := e.privatePort } ∧
      t.heap = s.heap ∧ t.fwdHash = s.fwdHash ∧ t.revHash = s.revHash ∧
      t.currentPort = s.currentPort := by
  cases hk : parse m with
  | none => exact Or.inl (natProcessPacket_ignored hk)
  | some k =>
    obtain ⟨-, -, rfl⟩ := parse_eq_some.1 hk
    have hdst : (keyOf m).dstIp = s.publicIp := hd.trans (run_publicIp h).symm
    cases hp : s.revHash (keyOf m) with
    | none => exact Or.inl (natProcessPacket_unmatched hk hdst hp)
    | some p =>
      right
      obtain ⟨e, he, hfwd, hport⟩ := revHash_entry h hp
      obtain ⟨m₀, hm₀, hout, hopen⟩ := entry_origin h he
      rw [hfwd] at hm₀ hout
      exact ⟨rewriteIn E m e, refresh E now s p, p, e, m₀, natProcessPacket_inbound hk hdst hp he, he,
        hopen, hout, hm₀, hport, rewriteIn_header E m e, rfl, rfl, rfl, rfl⟩

/-- The events of a run in which `flowA` and `flowB` open an entry each. -/
def eventsAB : List Event :=
  [.packet 0 (keyFrame flowA) (success 0), .packet 5 (keyFrame flowB) (success 1)]

/-- The key of the replies to `flowA`, which was given the first port. -/
def replyA : NatKey := replyKey mainPublicIp (rteCpuToBe16 1025) flowA

theorem parse_replyA : parse (keyFrame replyA) = some replyA := parse_keyFrame (Or.inl rfl)

theorem endpoint_dependent_filtering_replyA :
    ∃ m' t p e m₀, natProcessPacket ghz 7 (success 2) (stateAB ghz (success 0) (success 1))
          (keyFrame replyA) = some ⟨0, m', t⟩ ∧
      (stateAB ghz (success 0) (success 1)).heap p = some e ∧
      OpenedBy ghz mainPublicIp eventsAB p e m₀ ∧ (keyFrame replyA).srcAddr ≠ mainPublicIp ∧
      parse m₀ = some ⟨e.privateIp, (keyFrame replyA).srcAddr, e.privatePort,
        (keyFrame replyA).srcPort, (keyFrame replyA).nextProtoId⟩ ∧
      e.publicPort = (keyFrame replyA).dstPort ∧
      m'.header = { (keyFrame replyA).header with dstAddr := e.privateIp, dstPort := e.privatePort } ∧
      t.heap = (stateAB ghz (success 0) (success 1)).heap ∧
      t.fwdHash = (stateAB ghz (success 0) (success 1)).fwdHash ∧
      t.revHash = (stateAB ghz (success 0) (success 1)).revHash ∧
      t.currentPort = (stateAB ghz (success 0) (success 1)).currentPort := by
  have hrun : Run (Step ghz) (natInit mainPublicIp) eventsAB (stateAB ghz (success 0) (success 1)) :=
    (Run.refl.snoc (step_flowA (success 0) rfl)).snoc (step_flowB (success 0) (success 1) rfl)
  have hd : (keyFrame replyA).dstAddr = mainPublicIp := (parse_dstIp parse_replyA).symm
  refine (endpoint_dependent_filtering hrun hd 7 (success 2)).resolve_left ?_
  have hrev : (stateAB ghz (success 0) (success 1)).revHash replyA = some 0 := by decide
  rw [natProcessPacket_inbound parse_replyA rfl hrev rfl]
  simp

/-! ### Outbound packets -/

/-- The inserts of a packet succeed. -/
def Event.InsertsSucceed : Event → Prop
  | .packet _ _ o => o.addFwd = true ∧ o.addRev = true
  | .expire _ => True

/-- `fwd_hash` holds exactly the live entries. -/
abbrev FwdExact (s : NatState) : Prop := Exact s.heap NatEntry.fwdKey s.fwdHash

theorem fwdExact_natInit (ip : U32) : FwdExact (natInit ip) := exact_empty fun _ => rfl

theorem FwdExact.of_step (hs : FwdExact s) (h : Step E s ev t) (hev : ev.InsertsSucceed) :
    FwdExact t := by
  cases h.effect with
  | dropped => exact hs
  | refreshed => exact hs
  | @created _ _ o k q _ _ hf _ hq =>
    unfold FwdExact
    rw [created_fwdHash hev.1, created_heap]
    exact hs.add hq fun _ _ hf' => hs.key_ne hf hf'
  | expired hq => exact hs.free hq

/-- The steps of a run in which the inserts succeed. -/
def InsertStep (E : Env) (s : NatState) (ev : Event) (t : NatState) : Prop :=
  Step E s ev t ∧ ev.InsertsSucceed

theorem run_fwdExact (h : Run (InsertStep E) (natInit ip) evs s) : FwdExact s :=
  h.invariant (fwdExact_natInit ip) fun _ _ _ ha hst => ha.of_step hst.1 hst.2

theorem run_step_of_insertStep (h : Run (InsertStep E) s evs t) : Run (Step E) s evs t :=
  h.mono fun _ _ _ hst => hst.1

/-- What an accepted outbound packet leaves behind: it carries the public endpoint of the live entry of
its flow. -/
theorem outbound_sent (hs : FwdExact s) (hr : natProcessPacket E now o s m = some r)
    (hret : r.ret = 0) (hk : parse m = some k) (hd : k.dstIp ≠ s.publicIp) (hadd : o.addFwd = true) :
    ∃ p e, r.state.fwdHash k = some p ∧ r.state.heap p = some e ∧ e.fwdKey = k ∧
      r.mbuf.srcAddr = e.publicIp ∧ r.mbuf.srcPort = e.publicPort := by
  cases natProcessPacket_cases hr with
  | ignored => cases hret
  | unmatched => cases hret
  | noMemory => cases hret
  | inbound hk' hd' =>
    obtain rfl := Option.some.inj (hk.symm.trans hk')
    exact absurd hd' hd
  | @outbound k' p e hk' _ hf he =>
    obtain rfl := Option.some.inj (hk.symm.trans hk')
    obtain ⟨e', he', hkey⟩ := hs.sound k p hf
    obtain rfl := Option.some.inj (he.symm.trans he')
    exact ⟨p, e, hf, he, hkey, rewriteOut_srcAddr E m e, rewriteOut_srcPort E m e⟩
  | @opened k' p hk' _ _ _ =>
    obtain rfl := Option.some.inj (hk.symm.trans hk')
    refine ⟨p, freshEntry s k, ?_, ?_, rfl, rewriteOut_srcAddr .., rewriteOut_srcPort ..⟩
    · rw [created_fwdHash hadd, Function.update_self]
    · rw [created_heap, Function.update_self]

theorem FlowEntries.publicIp_eq (hs : FlowEntries s) (he : s.heap p = some e) : e.publicIp = s.publicIp := by
  obtain ⟨k, port, rfl, -, -⟩ := hs p e he
  rfl

/-- **Outbound mapping stability.**  In a run whose inserts succeed, at most one live entry has a given
forward key; and an accepted outbound packet of the flow `k` leaves by the entry `e` at `q`, with the address of the
NAT and the port of `e`.  As long as that entry has not expired every packet of `k` is accepted and leaves with the same
address and port. -/
theorem outbound_mapping_stable (h : Run (InsertStep E) (natInit ip) evs t) :
    (∀ p q e f, t.heap p = some e → t.heap q = some f → e.fwdKey = f.fwdKey → p = q) ∧
    ∀ pre now m o post s k r q, evs = pre ++ .packet now m o :: post →
      Run (InsertStep E) (natInit ip) pre s → InsertStep E s (.packet now m o) r.state →
      Run (InsertStep E) r.state post t → natProcessPacket E now o s m = some r →
      parse m = some k → k.dstIp ≠ ip → r.ret = 0 → r.state.fwdHash k = some q →
      Event.expire q ∉ post →
      ∃ e, t.heap q = some e ∧ e.fwdKey = k ∧ r.mbuf.srcAddr = ip ∧ r.mbuf.srcPort = e.publicPort ∧
        ∀ now' o' m', parse m' = some k → ∃ r', natProcessPacket E now' o' t m' = some r' ∧
          r'.ret = 0 ∧ r'.mbuf.srcAddr = ip ∧ r'.mbuf.srcPort = e.publicPort := by
  constructor
  · intro p q e f hp hq hkey
    exact (run_fwdExact h).inj hp hq hkey
  · intro pre now m o post s k r q _ hpre hst hpost hr hk hd hret hq hexp
    have hip : s.publicIp = ip := run_publicIp (run_step_of_insertStep hpre)
    obtain ⟨p, e, hp, he, rfl, hsrc, hport⟩ :=
      outbound_sent (run_fwdExact hpre) hr hret hk (hip ▸ hd) hst.2.1
    obtain rfl := Option.some.inj (hp.symm.trans hq)
    -- the entry is still there, so the exact table still holds it
    have ht : t.heap p = some e := run_heap (run_step_of_insertStep hpost) he hexp
    have hft : t.fwdHash e.fwdKey = some p := (run_fwdExact h).lookup ht
    have hipt : t.publicIp = ip := run_publicIp (run_step_of_insertStep h)
    have hpub : e.publicIp = ip := ((run_flowEntries (run_step_of_insertStep h)).publicIp_eq ht).trans hipt
    refine ⟨e, ht, rfl, hsrc.trans hpub, hport, fun now' o' m' hk' => ?_⟩
    refine ⟨_, natProcessPacket_outbound hk' (hipt ▸ hd) hft ht, rfl, ?_, ?_⟩
    · rw [rewriteOut_srcAddr, hpub]
    · rw [rewriteOut_srcPort]

/-- A second packet of `flowA`, after `flowB` has opened its entry, leaves with the address of the NAT and the port of
the first one. -/
theorem outbound_mapping_stable_flowA :
    ∃ e r', (stateAB ghz (success 0) (success 1)).heap 0 = some e ∧ e.fwdKey = flowA ∧
      (rewriteOut ghz (keyFrame flowA) (freshEntry (natInit mainPublicIp) flowA)).srcAddr = mainPublicIp ∧
      (rewriteOut ghz (keyFrame flowA) (freshEntry (natInit mainPublicIp) flowA)).srcPort = e.publicPort ∧
      natProcessPacket ghz 9 (success 2) (stateAB ghz (success 0) (success 1)) (keyFrame flowA) = some r' ∧
      r'.ret = 0 ∧ r'.mbuf.srcAddr = mainPublicIp ∧ r'.mbuf.srcPort = e.publicPort := by
  have h₁ : InsertStep ghz (natInit mainPublicIp) _ _ := ⟨step_flowA (success 0) rfl, rfl, rfl⟩
  have h₂ : InsertStep ghz (stateA ghz (success 0)) _ _ :=
    ⟨step_flowB (success 0) (success 1) rfl, rfl, rfl⟩
  have hr : natProcessPacket ghz 0 (success 0) (natInit mainPublicIp) (keyFrame flowA) = some _ :=
    natProcessPacket_opened (parse_webFlow ..) (by decide) rfl rfl
  have hq : (stateA ghz (success 0)).fwdHash flowA = some 0 := by decide
  obtain ⟨e, he, hkey, haddr, hport, hlater⟩ :=
    (outbound_mapping_stable ((Run.refl.snoc h₁).snoc h₂)).2 [] 0 (keyFrame flowA) (success 0) _
      (natInit mainPublicIp) flowA _ 0 rfl .refl h₁ (Run.refl.snoc h₂) hr (parse_webFlow ..) (by decide)
      rfl hq (by simp)
  obtain ⟨r', hr', hret, haddr', hport'⟩ := hlater 9 (success 2) (keyFrame flowA) (parse_webFlow ..)
  exact ⟨e, r', he, hkey, haddr, hport, hr', hret, haddr', hport'⟩

end DpdkBeginners.Napt
