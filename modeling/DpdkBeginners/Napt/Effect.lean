import DpdkBeginners.Napt.Packet

/-!
# What one step can do to the state

`Step.effect` says it once, and every invariant below is a case analysis over it: a packet leaves the
state alone, moves the deadline of one entry, or opens an entry; an expiry removes an entry.

`NoDangling` is the invariant that needs nothing of the environment: the tables point to live entries
with the right key, and exactly the live entries have an armed timer.
-/

namespace DpdkBeginners.Napt

open DpdkBeginners.Rte DpdkBeginners.Lib

variable {E : Env} {now : ℕ} {o : Outcome} {s t : NatState} {m : Mbuf} {k : NatKey} {p q : Ptr}
  {e : NatEntry} {ev : Event} {evs : List Event} {ip : U32}

/-! ### The state after an expiry -/

/-- The state after the timer of the entry `e` at `p` has fired. -/
def expired (s : NatState) (p : Ptr) (e : NatEntry) : NatState where
  publicIp := s.publicIp
  currentPort := s.currentPort
  fwdHash := rteHashDelKey s.fwdHash e.fwdKey
  revHash := rteHashDelKey s.revHash e.revKey
  heap := Function.update s.heap p none
  timers := rteTimerStop s.timers p

theorem fire_eq (he : s.heap p = some e) : fire s p = some (expired s p e) := by
  unfold fire natEntryExpire
  simp only [he]
  rfl

/-! ### Fields of the states -/

section Fields

@[simp] theorem refresh_heap : (refresh E now s p).heap = s.heap := rfl

@[simp] theorem created_heap :
    (created E now o s k p).heap = Function.update s.heap p (some (freshEntry s k)) := rfl

theorem created_fwdHash (h : o.addFwd = true) :
    (created E now o s k p).fwdHash = Function.update s.fwdHash k (some p) := if_pos h

theorem created_revHash (h : o.addRev = true) :
    (created E now o s k p).revHash =
      Function.update s.revHash (freshEntry s k).revKey (some p) := if_pos h

@[simp] theorem expired_heap : (expired s p e).heap = Function.update s.heap p none := rfl

theorem armedCount_refresh :
    armedCount (refresh E now s p).timers q = if q = p then 1 else armedCount s.timers q := by
  unfold refresh
  rw [armedCount_rteTimerReset, armedCount_rteTimerStop]
  split <;> rfl

theorem armedCount_created :
    armedCount (created E now o s k p).timers q = if q = p then 1 else armedCount s.timers q :=
  armedCount_rteTimerReset

theorem armedCount_expired :
    armedCount (expired s p e).timers q = if q = p then 0 else armedCount s.timers q :=
  armedCount_rteTimerStop

end Fields

/-! ### The effect of a step -/

/-- What a step can do. -/
inductive Effect (E : Env) (s : NatState) : Event → NatState → Prop
  /-- The packet is dropped. -/
  | dropped {now : ℕ} {m : Mbuf} {o : Outcome} : Effect E s (.packet now m o) s
  /-- The packet belongs to the entry at `p`. -/
  | refreshed {now : ℕ} {m : Mbuf} {o : Outcome} {p : Ptr} {e : NatEntry} : s.heap p = some e →
      Effect E s (.packet now m o) (refresh E now s p)
  /-- The packet opens an entry of its flow `k` at `p`. -/
  | created {now : ℕ} {m : Mbuf} {o : Outcome} {k : NatKey} {p : Ptr} : parse m = some k →
      k.dstIp ≠ s.publicIp → s.fwdHash k = none → o.malloc = some p → s.heap p = none →
      Effect E s (.packet now m o) (created E now o s k p)
  /-- The entry at `p` expires. -/
  | expired {p : Ptr} {e : NatEntry} : s.heap p = some e → Effect E s (.expire p) (expired s p e)

/-- **What a step can do.** -/
theorem Step.effect (h : Step E s ev t) : Effect E s ev t := by
  obtain ⟨hen, hst⟩ := h
  cases ev with
  | packet now m o =>
    obtain ⟨r, hr, rfl⟩ := Option.map_eq_some_iff.1 hst
    cases natProcessPacket_cases hr with
    | ignored => exact .dropped
    | unmatched => exact .dropped
    | inbound _ _ _ he => exact .refreshed he
    | outbound _ _ _ he => exact .refreshed he
    | noMemory => exact .dropped
    | opened hk hd hf hm => exact .created hk hd hf hm (hen _ hm)
  | expire p =>
    change fire s p = some t at hst
    cases he : s.heap p with
    | none =>
      simp [fire, natEntryExpire, he] at hst
    | some e =>
      rw [fire_eq he] at hst
      obtain rfl := Option.some.inj hst
      exact .expired he

theorem Step.publicIp (h : Step E s ev t) : t.publicIp = s.publicIp := by
  cases h.effect <;> rfl

theorem Step.heap_of_ne (h : Step E s ev t) (he : s.heap p = some e) (hev : ev ≠ .expire p) :
    t.heap p = some e := by
  cases h.effect with
  | dropped => exact he
  | refreshed => exact he
  | @created _ _ _ _ q _ _ _ _ hq =>
    have hpq : p ≠ q := by
      rintro rfl
      simp [he] at hq
    rw [created_heap, Function.update_of_ne hpq, he]
  | @expired q _ _ =>
    have hpq : p ≠ q := by
      rintro rfl
      exact hev rfl
    rw [expired_heap, Function.update_of_ne hpq, he]

theorem run_publicIp (h : Run (Step E) (natInit ip) evs s) : s.publicIp = ip :=
  h.invariant (I := fun a => a.publicIp = ip) rfl fun _ _ _ ha hst => hst.publicIp.trans ha

theorem run_heap (h : Run (Step E) s evs t) (he : s.heap p = some e) (hp : Event.expire p ∉ evs) :
    t.heap p = some e := by
  have h' := h.restrict (Q := fun ev => ev ≠ .expire p) fun ev hev heq => hp (heq ▸ hev)
  exact h'.invariant (I := fun a => a.heap p = some e) he fun a f b ha hst =>
    hst.1.heap_of_ne ha hst.2

/-! ### Opening entries -/

/-- The outcome of a call in which `rte_malloc` returns `p` and both inserts succeed. -/
def success (p : Ptr) : Outcome := ⟨some p, true, true⟩

theorem step_opened (hk : parse m = some k) (hd : k.dstIp ≠ s.publicIp) (hf : s.fwdHash k = none)
    (hm : o.malloc = some p) (hp : s.heap p = none) :
    Step E s (.packet now m o) (created E now o s k p) := by
  refine ⟨?_, ?_⟩
  · intro q hq
    obtain rfl := Option.some.inj (hm.symm.trans hq)
    exact hp
  · exact Option.map_eq_some_iff.2 ⟨_, natProcessPacket_opened hk hd hf hm, rfl⟩

/-! ### A small run -/

/-- The public address of `main.c`. -/
def mainPublicIp : U32 := netAddr 1 2 3 4

/-- A TCP flow from port 1000 of a client to port 80 of a server. -/
def webFlow (client server : U32) : NatKey :=
  ⟨client, server, rteCpuToBe16 1000, rteCpuToBe16 80, ipprotoTcp⟩

def flowA : NatKey := webFlow (netAddr 10 0 0 1) (netAddr 8 8 8 8)
def flowB : NatKey := webFlow (netAddr 10 0 0 2) (netAddr 8 8 8 8)

theorem parse_webFlow (client server : U32) :
    parse (keyFrame (webFlow client server)) = some (webFlow client server) :=
  parse_keyFrame (Or.inl rfl)

/-- The state in which `flowA` has opened an entry. -/
def stateA (E : Env) (o : Outcome) : NatState := created E 0 o (natInit mainPublicIp) flowA 0

/-- The state in which then `flowB` has opened one, too. -/
def stateAB (E : Env) (o o' : Outcome) : NatState := created E 5 o' (stateA E o) flowB 1

theorem step_flowA (o : Outcome) (hm : o.malloc = some 0) :
    Step E (natInit mainPublicIp) (.packet 0 (keyFrame flowA) o) (stateA E o) :=
  step_opened (parse_webFlow ..) (by decide) rfl hm rfl

theorem step_flowB (o o' : Outcome) (hm : o'.malloc = some 1) :
    Step E (stateA E o) (.packet 5 (keyFrame flowB) o') (stateAB E o o') := by
  have hne : flowB ≠ flowA := by decide
  have hf : (stateA E o).fwdHash flowB = none := by
    unfold stateA created
    cases o.addFwd with
    | false => rfl
    | true => exact Function.update_of_ne hne (some 0) _
  exact step_opened (parse_webFlow ..) (by show flowB.dstIp ≠ mainPublicIp; decide) hf hm rfl

/-! ### No dangling entries -/

/-- **Every pointer in a table is to a live entry with that key, and the live entries are the ones
with an armed timer, exactly one each.** -/
structure NoDangling (s : NatState) : Prop where
  fwd : Sound s.heap NatEntry.fwdKey s.fwdHash
  rev : Sound s.heap NatEntry.revKey s.revHash
  armed : ∀ p, armedCount s.timers p = if (s.heap p).isSome then 1 else 0

theorem noDangling_natInit (ip : U32) : NoDangling (natInit ip) :=
  ⟨sound_empty, sound_empty, fun _ => rfl⟩

/-- An insert that fails leaves the table sound, and so does one that succeeds. -/
theorem sound_rteHashAddKeyData {h : Ptr → Option NatEntry} {key : NatEntry → NatKey}
    {ix : RteHash NatKey Ptr} (hs : Sound h key ix) (hp : h p = some e) (ok : Bool) :
    Sound h key (rteHashAddKeyData ok ix (key e) p) := by
  cases ok with
  | false => exact hs
  | true => exact hs.add hp

/-- **A step creates no dangling entry.** -/
theorem NoDangling.of_step (hs : NoDangling s) (h : Step E s ev t) : NoDangling t := by
  cases h.effect with
  | dropped => exact hs
  | @refreshed _ _ _ q f hq =>
    refine ⟨hs.fwd, hs.rev, ?_⟩
    intro p
    rw [armedCount_refresh, refresh_heap]
    split_ifs with h₁ h₂ h₂
    · rfl
    · subst h₁
      simp [hq] at h₂
    · simpa [h₂] using hs.armed p
    · simpa [h₂] using hs.armed p
  | @created _ _ o k q _ _ _ _ hq =>
    have hnew : Function.update s.heap q (some (freshEntry s k)) q = some (freshEntry s k) :=
      Function.update_self ..
    refine ⟨sound_rteHashAddKeyData (hs.fwd.alloc hq) hnew o.addFwd,
      sound_rteHashAddKeyData (hs.rev.alloc hq) hnew o.addRev, ?_⟩
    intro p
    rw [armedCount_created, created_heap]
    by_cases hp : p = q
    · subst hp
      simp
    · rw [if_neg hp, Function.update_of_ne hp, hs.armed p]
  | @expired q f hq =>
    refine ⟨hs.fwd.free hq, hs.rev.free hq, ?_⟩
    intro p
    rw [armedCount_expired, expired_heap]
    by_cases hp : p = q
    · subst hp
      simp
    · rw [if_neg hp, Function.update_of_ne hp, hs.armed p]

theorem run_noDangling (h : Run (Step E) (natInit ip) evs s) : NoDangling s :=
  h.invariant (noDangling_natInit ip) fun _ _ _ ha hst => ha.of_step hst

/-- **No event reads or frees an entry that is not allocated.** -/
theorem NoDangling.progress (hs : NoDangling s) (hen : Enabled s ev) : ∃ t, step E s ev = some t := by
  cases ev with
  | packet now m o =>
    suffices h : ∃ r, natProcessPacket E now o s m = some r by
      obtain ⟨r, hr⟩ := h
      exact ⟨r.state, by simp [step, hr]⟩
    cases hk : parse m with
    | none => exact ⟨_, natProcessPacket_ignored hk⟩
    | some k =>
      by_cases hd : k.dstIp = s.publicIp
      · cases hp : s.revHash k with
        | none => exact ⟨_, natProcessPacket_unmatched hk hd hp⟩
        | some p =>
          obtain ⟨e, he, -⟩ := hs.rev k p hp
          exact ⟨_, natProcessPacket_inbound hk hd hp he⟩
      · cases hp : s.fwdHash k with
        | none =>
          cases hm : o.malloc with
          | none => exact ⟨_, natProcessPacket_noMemory hk hd hp hm⟩
          | some p => exact ⟨_, natProcessPacket_opened hk hd hp hm⟩
        | some p =>
          obtain ⟨e, he, -⟩ := hs.fwd k p hp
          exact ⟨_, natProcessPacket_outbound hk hd hp he⟩
  | expire p =>
    have hcount : 0 < armedCount s.timers p := armedCount_pos.2 hen
    rw [hs.armed p] at hcount
    cases he : s.heap p with
    | none => simp [he] at hcount
    | some e => exact ⟨_, fire_eq he⟩

/-- **No dangling entry.**  Whatever `rte_malloc` and the inserts return, in every state that a run
reaches the tables point to live entries under their own key, each live entry has one armed timer and
no other pointer has one; and no packet and no expiry reads or frees an entry that is not allocated. -/
theorem no_dangling_entry (h : Run (Step E) (natInit ip) evs s) :
    (∀ k p, s.fwdHash k = some p → ∃ e, s.heap p = some e ∧ e.fwdKey = k) ∧
    (∀ k p, s.revHash k = some p → ∃ e, s.heap p = some e ∧ e.revKey = k) ∧
    (∀ p e, s.heap p = some e → armedCount s.timers p = 1) ∧
    (∀ p, s.heap p = none → armedCount s.timers p = 0) ∧
    ∀ ev, Enabled s ev → ∃ t, step E s ev = some t := by
  have hs := run_noDangling h
  refine ⟨hs.fwd, hs.rev, ?_, ?_, fun ev hen => hs.progress hen⟩
  · intro p e he
    rw [hs.armed p, he]
    rfl
  · intro p he
    rw [hs.armed p, he]
    rfl

/-- `flowA` is inserted into `fwd_hash` only and `flowB` into `rev_hash` only, and then the timer of
`flowA` fires. -/
theorem no_dangling_entry_failedInserts :
    ∃ s, s.heap 0 = none ∧ (s.heap 1).isSome ∧
      (∀ k p, s.fwdHash k = some p → ∃ e, s.heap p = some e ∧ e.fwdKey = k) ∧
      (∀ k p, s.revHash k = some p → ∃ e, s.heap p = some e ∧ e.revKey = k) ∧
      (∀ p e, s.heap p = some e → armedCount s.timers p = 1) ∧
      (∀ p, s.heap p = none → armedCount s.timers p = 0) ∧
      ∀ ev, Enabled s ev → ∃ t, step ghz s ev = some t := by
  let o : Outcome := ⟨some 0, true, false⟩
  let o' : Outcome := ⟨some 1, false, true⟩
  have h₁ : Step ghz (natInit mainPublicIp) _ _ := step_flowA o rfl
  have h₂ : Step ghz (stateA ghz o) _ _ := step_flowB o o' rfl
  have h₃ : Step ghz (stateAB ghz o o') (.expire 0) _ := ⟨armedCount_pos.1 (by decide), fire_eq rfl⟩
  exact ⟨_, rfl, rfl, no_dangling_entry (((Run.refl.snoc h₁).snoc h₂).snoc h₃)⟩

end DpdkBeginners.Napt
