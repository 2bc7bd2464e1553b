import DpdkBeginners.Pool.Rep

/-!
# Stable addresses and exact expiry

As long as a host is not idle for too long, its slot stays its own.  The invariant along a run without
resets is that the slot is still held and was last seen at `t₁` or later (`Held.of_run`); an expiry at a
later reading then finds it not idle, and a packet of another host takes another slot.
-/

namespace DpdkBeginners.Pool

open DpdkBeginners.Rte DpdkBeginners.Lib

variable {E : Env} {p q : NatPool} {m : Mbuf} {now t₁ t₂ : U64} {i slot : ℕ} {host src : U32}
  {ev : Event} {evs : List Event} {addr range : U32} {hz : U64} {statics : List (U32 × U32)}

/-! ### The clock -/

/-- The clock reading of an event. -/
def Event.time : Event → Option U64
  | .packet _ now => some now
  | .expiry now => some now
  | .arm now _ _ => some now
  | .table => none
  | .reset => none

/-- The clock does not go backwards. -/
def Nondecreasing (evs : List Event) : Prop := (evs.filterMap Event.time).Pairwise (· ≤ ·)

/-- No event is later than `c`. -/
def NotAfter (c : U64) (evs : List Event) : Prop := ∀ ev ∈ evs, ∀ t ∈ ev.time, t ≤ c

/-! ### A slot and one packet -/

/-- What a packet can do to slot `i`: nothing, record its own time, or give the slot to its source. -/
theorem packet_entries (E : Env) (p : NatPool) (now : U64) (m : Mbuf) (i : ℕ) :
    (natApplyPacket E p now m).1.entries i = p.entries i ∨
    (natApplyPacket E p now m).1.entries i = { p.entries i with lastSeenTsc := now } ∨
    (p.entries i).inUse = false ∧ (natApplyPacket E p now m).1.entries i =
      { p.entries i with privateIp := m.srcAddr, inUse := true, lastSeenTsc := now } := by
  have hcase := natApplyPacket_cases E p now m
  revert hcase
  generalize natApplyPacket E p now m = x
  intro hcase
  cases hcase with
  | notIpv4 => exact Or.inl rfl
  | static => exact Or.inl rfl
  | @known slot =>
    by_cases hi : i = slot
    · subst hi
      right; left
      show Function.update p.entries i _ i = _
      rw [Function.update_self]
    · left
      show Function.update p.entries slot _ i = _
      rw [Function.update_of_ne hi]
  | @assigned slot _ _ _ hfree =>
    by_cases hi : i = slot
    · subst hi
      right; right
      refine ⟨hfree.2.2.1, ?_⟩
      show Function.update p.entries i _ i = _
      rw [Function.update_self]
    · left
      show Function.update p.entries slot _ i = _
      rw [Function.update_of_ne hi]
  | dropped => exact Or.inl rfl

/-- The host holds the slot. -/
def Held (p : NatPool) (slot : ℕ) (host : U32) : Prop :=
  slot < p.poolSize.toNat ∧ (p.entries slot).inUse = true ∧ (p.entries slot).privateIp = host

theorem held_of_sent {r : Mbuf} (hp : Rep p) (hip : m.IsIpv4) (hin : p.inboundMap m.dstAddr = none)
    (hr : (natApplyPacket E p now m).2 = some r) :
    ∃ slot, Held (natApplyPacket E p now m).1 slot m.srcAddr ∧
      ((natApplyPacket E p now m).1.entries slot).lastSeenTsc = now ∧
      r.srcAddr = ((natApplyPacket E p now m).1.entries slot).publicIp := by
  have hcase := natApplyPacket_cases E p now m
  revert hcase hr
  generalize natApplyPacket E p now m = x
  intro hr hcase
  cases hcase with
  | notIpv4 hip' => exact absurd hip hip'
  | static _ hin' => simp [hin] at hin'
  | dropped => cases hr
  | @known slot _ _ hs =>
    obtain rfl := Option.some.inj hr
    obtain ⟨hi, hu, hsrc⟩ := hp.iff.1 hs
    refine ⟨slot, ⟨hi, ?_, ?_⟩, ?_, ?_⟩
    · simp [touched, setEntry_entries, hu]
    · simp [touched, setEntry_entries, hsrc]
    · simp [touched, setEntry_entries]
    · simp [touched, setEntry_entries, rewriteSrc_srcAddr]
  | @assigned slot _ _ _ hfree =>
    obtain rfl := Option.some.inj hr
    refine ⟨slot, ⟨hfree.1, ?_, ?_⟩, ?_, ?_⟩
    · simp [assigned, setEntry_entries]
    · simp [assigned, setEntry_entries]
    · simp [assigned, setEntry_entries]
    · simp [assigned, setEntry_entries, rewriteSrc_srcAddr]

theorem Held.sent (now : U64) (h : Held p slot m.srcAddr) (hp : Rep p) (hip : m.IsIpv4)
    (hin : p.inboundMap m.dstAddr = none) :
    ∃ r, (natApplyPacket E p now m).2 = some r ∧ r.srcAddr = (p.entries slot).publicIp := by
  have hs : p.outboundMap m.srcAddr = some slot := hp.iff.2 h
  rw [natApplyPacket_known hip hin hs]
  exact ⟨_, rfl, rewriteSrc_srcAddr E m _⟩

/-! ### A slot along a run -/

/-- Nothing but a reset or an expiry takes a slot from its host, and what moves its time is a packet. -/
theorem Held.of_step (h : Held p slot host) (hev : ev ≠ .table ∧ ev ≠ .reset)
    (hidle : ∀ now, ev = .expiry now → ¬ Idle p now slot) :
    Held (step E p ev) slot host ∧
      (((step E p ev).entries slot).lastSeenTsc = (p.entries slot).lastSeenTsc ∨
        ev.time = some ((step E p ev).entries slot).lastSeenTsc) := by
  obtain ⟨hi, hu, hhost⟩ := h
  have hsize := (sameConfig_step E p ev).poolSize
  unfold Held
  rw [hsize]
  cases ev with
  | packet m now =>
    have hst : step E p (.packet m now) = (natApplyPacket E p now m).1 := rfl
    rw [hst]
    rcases packet_entries E p now m slot with hs | hs | ⟨hfree, -⟩
    · rw [hs]
      exact ⟨⟨hi, hu, hhost⟩, Or.inl rfl⟩
    · rw [hs]
      exact ⟨⟨hi, hu, hhost⟩, Or.inr rfl⟩
    · simp [hu] at hfree
  | expiry now =>
    have hs : (step E p (.expiry now)).entries slot = p.entries slot := by
      show (expiryTimerCb p now).entries slot = _
      rw [(released_expiryTimerCb p now).entries, if_neg]
      exact fun h => hidle now rfl h.2
    rw [hs]
    exact ⟨⟨hi, hu, hhost⟩, Or.inl rfl⟩
  | arm => exact ⟨⟨hi, hu, hhost⟩, Or.inl rfl⟩
  | table => exact absurd rfl hev.1
  | reset => exact absurd rfl hev.2

theorem not_idle {c : U64} (h₁ : t₁ ≤ (p.entries slot).lastSeenTsc)
    (h₂ : (p.entries slot).lastSeenTsc ≤ c) (h₃ : c ≤ t₂) (h : t₂ - t₁ < p.idleTsc) :
    ¬ Idle p c slot := by
  rintro ⟨-, hidle⟩
  generalize (p.entries slot).lastSeenTsc = l at *
  bv_omega

/-- **A slot seen at `t₁` stays with its host** through a run that ends soon after. -/
theorem Held.of_run (hrun : Run (Step E) p evs q) (h : Held p slot host)
    (hseen : t₁ ≤ (p.entries slot).lastSeenTsc)
    (hlater : ∀ ev ∈ evs, ∀ t ∈ ev.time, (p.entries slot).lastSeenTsc ≤ t)
    (hclock : Nondecreasing evs) (hend : NotAfter t₂ evs)
    (hreset : ∀ ev ∈ evs, ev ≠ .table ∧ ev ≠ .reset) (hidle : t₂ - t₁ < p.idleTsc) :
    Held q slot host := by
  induction evs generalizing p with
  | nil =>
    obtain rfl := Run.nil_iff.1 hrun
    exact h
  | cons ev evs ih =>
    obtain ⟨a, hst, hrun⟩ := Run.cons_iff.1 hrun
    obtain rfl : step E p ev = a := hst
    have hnot : ∀ now, ev = .expiry now → ¬ Idle p now slot := by
      rintro now rfl
      exact not_idle hseen (hlater (.expiry now) (by simp) now rfl)
        (hend (.expiry now) (by simp) now rfl) hidle
    obtain ⟨hheld, htime⟩ := h.of_step (E := E) (hreset ev (by simp)) hnot
    have hrest : Nondecreasing evs := by
      unfold Nondecreasing at hclock ⊢
      rw [List.filterMap_cons] at hclock
      split at hclock
      · exact hclock
      · exact (List.pairwise_cons.1 hclock).2
    refine ih hrun hheld ?_ ?_ hrest (fun f hf => hend f (by simp [hf]))
      (fun f hf => hreset f (by simp [hf])) ?_
    · rcases htime with heq | heq
      · rw [heq]
        exact hseen
      · exact BitVec.le_trans hseen (hlater ev (by simp) _ heq)
    · intro f hf t ht
      rcases htime with heq | heq
      · rw [heq]
        exact hlater f (by simp [hf]) t ht
      · -- the slot was seen by this event, and the clock does not go backwards
        unfold Nondecreasing at hclock
        rw [List.filterMap_cons_some heq] at hclock
        exact (List.pairwise_cons.1 hclock).1 t (List.mem_filterMap.2 ⟨f, hf, ht⟩)
    · rw [(sameConfig_step E p ev).idleTsc]
      exact hidle

/-! ### No slot is seen in the future -/

/-- No slot in use was last seen after `c`. -/
def SeenBy (c : U64) (p : NatPool) : Prop :=
  ∀ i < p.poolSize.toNat, (p.entries i).inUse = true → (p.entries i).lastSeenTsc ≤ c

theorem seenBy_clearEntries (c : U64) (p : NatPool) (b : Bool) :
    SeenBy c { clearEntries p with outboundMap := rteHashEmpty, started := b } := by
  intro i hi hu
  have hnone := live_clearEntries p i
  unfold live at hnone
  rw [if_pos ⟨hi, hu⟩] at hnone
  cases hnone

theorem SeenBy.of_step {c : U64} (h : SeenBy c p) (hev : ∀ t ∈ ev.time, t ≤ c) :
    SeenBy c (step E p ev) := by
  cases ev with
  | packet m now =>
    intro i hi
    rw [(sameConfig_step E p _).poolSize] at hi
    have hst : step E p (.packet m now) = (natApplyPacket E p now m).1 := rfl
    rw [hst]
    rcases packet_entries E p now m i with hs | hs | ⟨-, hs⟩
    · rw [hs]
      exact h i hi
    · rw [hs]
      exact fun _ => hev now rfl
    · rw [hs]
      exact fun _ => hev now rfl
  | expiry now =>
    intro i hi
    rw [(sameConfig_step E p _).poolSize] at hi
    show ((expiryTimerCb p now).entries i).inUse = true → _
    change _ → ((expiryTimerCb p now).entries i).lastSeenTsc ≤ c
    rw [(released_expiryTimerCb p now).entries]
    split
    · intro hu
      cases hu
    · exact h i hi
  | arm => exact h
  | table => exact seenBy_clearEntries c _ _
  | reset => exact seenBy_clearEntries c _ _

theorem run_seenBy {c : U64} (h : Run (Step E) (initPool addr range hz statics) evs p)
    (hevs : NotAfter c evs) : SeenBy c p := by
  refine (h.restrict hevs).invariant (I := SeenBy c) ?_ ?_
  · obtain ⟨ib, h₀⟩ := initPool_eq addr range hz statics
    rw [h₀]
    intro i _ hu
    cases hu
  · rintro a f b ha ⟨rfl, hf⟩
    exact ha.of_step hf

/-! ### The two properties -/

/-- **Stable addresses and exact expiry.**  In a run whose clock does not go backwards: a host whose packet was
translated at `t₁`, to the public address of some slot, has its packet at `t₂` translated to that address as well and
holds the slot until then, if that is less than the idle time later and no reset came between; and an expiry releases
exactly the slots that have been idle for so long, deletes exactly their keys, and leaves every other slot and key as
it is, where the idle time of a slot is a difference that does not wrap. -/
theorem address_stable_and_expiry_exact (h : Run (Step E) (initPool addr range hz statics) evs p)
    (hclock : Nondecreasing evs) :
    (∀ pre m₁ t₁ mid p₁ r₁ m₂ t₂, evs = pre ++ .packet m₁ t₁ :: mid →
      Run (Step E) (initPool addr range hz statics) pre p₁ →
      (∀ ev ∈ mid, ev ≠ .table ∧ ev ≠ .reset) →
      m₁.IsIpv4 → p.inboundMap m₁.dstAddr = none → (natApplyPacket E p₁ t₁ m₁).2 = some r₁ →
      m₂.IsIpv4 → p.inboundMap m₂.dstAddr = none → m₂.srcAddr = m₁.srcAddr →
      NotAfter t₂ evs → t₂ - t₁ < p.idleTsc →
      ∃ slot, Held p slot m₁.srcAddr ∧ r₁.srcAddr = slotAddr addr slot ∧
        ∃ r₂, (natApplyPacket E p t₂ m₂).2 = some r₂ ∧ r₂.srcAddr = slotAddr addr slot) ∧
    ∀ now, NotAfter now evs → SeenBy now p ∧
      Released p now p.poolSize.toNat (expiryTimerCb p now) := by
  refine ⟨?_, fun now hnow => ⟨run_seenBy h hnow, released_expiryTimerCb p now⟩⟩
  rintro pre m₁ t₁ mid p₁ r₁ m₂ t₂ rfl hpre hreset hip₁ hin₁ hr₁ hip₂ hin₂ hsrc hend hidle
  obtain ⟨p₁', hpre', hrest⟩ := Run.append_iff.1 h
  obtain ⟨a, hst, hmid⟩ := Run.cons_iff.1 hrest
  obtain rfl : p₁ = p₁' := hpre.unique (fun _ _ _ _ hb hc => hb.symm.trans hc) hpre'
  obtain rfl : (natApplyPacket E p₁ t₁ m₁).1 = a := hst
  have hconf := run_sameConfig hrest
  have hconf' := run_sameConfig hmid
  rw [hconf.inboundMap] at hin₁
  obtain ⟨slot, hheld, hseen, hr₁'⟩ := held_of_sent (run_rep hpre) hip₁ hin₁ hr₁
  -- the clock readings of `mid` come after `t₁`, in order
  have htime : (Event.packet m₁ t₁).time = some t₁ := rfl
  unfold Nondecreasing at hclock
  rw [List.filterMap_append, List.filterMap_cons_some htime] at hclock
  obtain ⟨-, hclock, -⟩ := List.pairwise_append.1 hclock
  obtain ⟨hlater, hclock⟩ := List.pairwise_cons.1 hclock
  have hheld' : Held p slot m₁.srcAddr := by
    refine hheld.of_run hmid (BitVec.le_of_eq hseen.symm) ?_ hclock
      (fun ev hev => hend ev (by simp [hev])) hreset (hconf'.idleTsc ▸ hidle)
    intro ev hev t ht
    rw [hseen]
    exact hlater t (List.mem_filterMap.2 ⟨ev, hev, ht⟩)
  have hpub : ∀ i, (p.entries i).publicIp = slotAddr addr i := (run_config h).2.2
  have hsent := hheld'
  rw [← hsrc] at hsent
  obtain ⟨r₂, hr₂, hsrc₂⟩ := hsent.sent t₂ (run_rep h) hip₂ hin₂
  refine ⟨slot, hheld', ?_, r₂, hr₂, ?_⟩
  · rw [hr₁', ← hconf'.publicIp, hpub]
  · rw [hsrc₂, hpub]

/-- A second packet of `hostA`, 3 seconds after its first one and after an expiry. -/
theorem address_stable_hostA :
    ∃ r₁ slot, (natApplyPacket ghz (fivePool mainStart) 1000000000 (frame hostA remote)).2 = some r₁ ∧
      Held (expiryTimerCb (fivePoolA mainStart) 3000000000) slot hostA ∧ r₁.srcAddr = slotAddr mainStart slot ∧
      ∃ r₂, (natApplyPacket ghz (expiryTimerCb (fivePoolA mainStart) 3000000000) 4000000000
        (frame hostA remote)).2 = some r₂ ∧ r₂.srcAddr = slotAddr mainStart slot := by
  have happ := natApplyPacket_fivePool ghz mainStart
  have hrun : Run (Step ghz) (fivePool mainStart)
      [.packet (frame hostA remote) 1000000000, .expiry 3000000000]
      (expiryTimerCb (fivePoolA mainStart) 3000000000) := (run_fivePoolA mainStart).snoc rfl
  have hclock : Nondecreasing [.packet (frame hostA remote) 1000000000, .expiry 3000000000] := by
    show List.Pairwise (· ≤ ·) [(1000000000 : U64), 3000000000]
    decide
  have hlate : NotAfter 4000000000
      [.packet (frame hostA remote) 1000000000, .expiry 3000000000] := by
    intro ev hev t ht
    rcases List.mem_cons.1 hev with rfl | hev
    · cases ht
      decide
    · obtain rfl := List.mem_singleton.1 hev
      cases ht
      decide
  have hin : (expiryTimerCb (fivePoolA mainStart) 3000000000).inboundMap
      (frame hostA remote).dstAddr = none := by
    rw [frame_dstAddr, (run_config hrun).2.1]
    rfl
  obtain ⟨slot, hheld, hsrc, hlater⟩ := (address_stable_and_expiry_exact hrun hclock).1 [] (frame hostA remote)
    1000000000 [.expiry 3000000000] (fivePool mainStart) _ (frame hostA remote) 4000000000 rfl .refl
    (by simp) (frame_isIpv4 ..) hin (congrArg Prod.snd happ) (frame_isIpv4 ..) hin rfl hlate
    (by rw [(run_sameConfig hrun).idleTsc]; decide)
  exact ⟨_, slot, congrArg Prod.snd happ, hheld, hsrc, hlater⟩

end DpdkBeginners.Pool
