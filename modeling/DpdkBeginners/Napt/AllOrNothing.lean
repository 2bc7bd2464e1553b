import DpdkBeginners.Napt.Effect

/-!
# Installing a mapping

`create_entry` does nothing when `rte_malloc` fails, but it does not look at what the two inserts return:
the timer is armed and the packet is sent on whether or not the entry is in both tables.

So an outbound packet leaves either a mapping that is installed or the state as it was if and only if the
mapping is there already, or there is no memory, or both inserts succeed (`create_all_or_nothing`).
-/

namespace DpdkBeginners.Napt

open DpdkBeginners.Rte DpdkBeginners.Lib

variable {E : Env} {now : ℕ} {o : Outcome} {s : NatState} {m : Mbuf} {k : NatKey} {p : Ptr}
  {e : NatEntry} {r : Result} {evs : List Event} {ip : U32}

/-! ### What the call should leave behind -/

/-- The entry at `p` is allocated and is the one of the flow `k`, both tables lead to it under its two keys,
and its timer is armed. -/
structure InstalledAt (s : NatState) (k : NatKey) (p : Ptr) (e : NatEntry) : Prop where
  heap : s.heap p = some e
  fwdKey : e.fwdKey = k
  fwd : s.fwdHash k = some p
  rev : s.revHash e.revKey = some p
  armed : Armed s.timers p

/-- The same tables, the same entries and the same timers. -/
structure Unchanged (s t : NatState) : Prop where
  fwdHash : t.fwdHash = s.fwdHash
  revHash : t.revHash = s.revHash
  heap : t.heap = s.heap
  timers : t.timers = s.timers

/-- All or nothing: the packet is sent on and the mapping of `k` is installed, or it is dropped and nothing
has changed. -/
def AllOrNothing (s : NatState) (k : NatKey) (r : Result) : Prop :=
  (r.ret = 0 ∧ ∃ p e, InstalledAt r.state k p e) ∨ (r.ret = -1 ∧ Unchanged s r.state)

/-- What `create_entry` needs: the flow `k` has a mapping in both tables, or there is none and, if
`rte_malloc` returns memory, both inserts succeed.  Only an insert of what the table holds already, which is
no mapping of a live entry (`installable_iff`), may fail. -/
def Installable (o : Outcome) (s : NatState) (k : NatKey) : Prop :=
  match s.fwdHash k with
  | some p => ∃ e, s.heap p = some e ∧ e.fwdKey = k ∧ s.revHash e.revKey = some p
  | none => ∀ p, o.malloc = some p →
      o.addFwd = true ∧ (o.addRev = true ∨ s.revHash (freshEntry s k).revKey = some p)

/-! ### The three ways of an outbound packet -/

theorem armed_rteTimerReset (l : RteTimers Ptr) (p : Ptr) (d : ℕ) : Armed (rteTimerReset l p d) p :=
  armed_iff.2 ⟨d, mem_rteTimerReset.2 (.inr ⟨rfl, rfl⟩)⟩

theorem rteHashAddKeyData_self (ok : Bool) (t : RteHash NatKey Ptr) (k : NatKey) (p : Ptr) :
    rteHashAddKeyData ok t k p k = if ok then some p else t k := by
  cases ok with
  | false => rfl
  | true => exact Function.update_self ..

theorem installedAt_refresh_iff {q : Ptr} (hp : s.fwdHash k = some p) :
    InstalledAt (refresh E now s p) k q e ↔
      q = p ∧ s.heap p = some e ∧ e.fwdKey = k ∧ s.revHash e.revKey = some p := by
  constructor
  · rintro ⟨he, hkey, hfwd, hrev, -⟩
    obtain rfl : p = q := Option.some.inj (hp.symm.trans hfwd)
    exact ⟨rfl, he, hkey, hrev⟩
  · rintro ⟨rfl, he, hkey, hrev⟩
    exact ⟨he, hkey, hp, hrev, armed_rteTimerReset ..⟩

/-- A flow that has none is given one at `p`, which is installed if and only if both tables lead there. -/
theorem installedAt_created_iff {q : Ptr} (hp : s.fwdHash k = none) :
    InstalledAt (created E now o s k p) k q e ↔
      q = p ∧ e = freshEntry s k ∧ o.addFwd = true ∧
        (o.addRev = true ∨ s.revHash (freshEntry s k).revKey = some p) := by
  have hfwd : (created E now o s k p).fwdHash k = some q ↔ q = p ∧ o.addFwd = true := by
    show rteHashAddKeyData o.addFwd s.fwdHash k p k = some q ↔ _
    rw [rteHashAddKeyData_self]
    cases o.addFwd with
    | false => simp [hp]
    | true => simp [eq_comm]
  have hrev : (created E now o s k p).revHash (freshEntry s k).revKey = some p ↔
      o.addRev = true ∨ s.revHash (freshEntry s k).revKey = some p := by
    show rteHashAddKeyData o.addRev s.revHash (freshEntry s k).revKey p _ = some p ↔ _
    rw [rteHashAddKeyData_self]
    cases o.addRev with
    | false => simp
    | true => simp
  have hheap : (created E now o s k p).heap p = some (freshEntry s k) := by simp [created]
  constructor
  · rintro ⟨he, -, hin, hback, -⟩
    obtain ⟨rfl, hadd⟩ := hfwd.1 hin
    obtain rfl := Option.some.inj (hheap.symm.trans he)
    exact ⟨rfl, rfl, hadd, hrev.1 hback⟩
  · rintro ⟨rfl, rfl, hadd, hback⟩
    exact ⟨hheap, rfl, hfwd.2 ⟨rfl, hadd⟩, hrev.2 hback, armed_rteTimerReset ..⟩

/-- **All or nothing.**  In every state, whatever `rte_malloc` and the inserts return, the call of an
outbound packet succeeds with its mapping installed or fails and changes nothing if and only if the mapping
can be installed. -/
theorem create_all_or_nothing (hk : parse m = some k) (hd : k.dstIp ≠ s.publicIp) :
    (∃ r, natProcessPacket E now o s m = some r ∧ AllOrNothing s k r) ↔ Installable o s k := by
  have hsent : ∀ {buf t}, natProcessPacket E now o s m = some ⟨0, buf, t⟩ →
      ((∃ r, natProcessPacket E now o s m = some r ∧ AllOrNothing s k r) ↔
        ∃ p e, InstalledAt t k p e) := by
    intro buf t hr
    rw [hr]
    simp [AllOrNothing]
  unfold Installable
  cases hp : s.fwdHash k with
  | some p =>
    cases he : s.heap p with
    | none =>
      have hnone : natProcessPacket E now o s m = none := by simp [natProcessPacket, hk, hd, hp, he]
      simp [hnone, he]
    | some e =>
      rw [hsent (natProcessPacket_outbound hk hd hp he)]
      constructor
      · rintro ⟨q, f, hinst⟩
        exact ⟨f, ((installedAt_refresh_iff hp).1 hinst).2⟩
      · rintro ⟨f, hf⟩
        exact ⟨p, f, (installedAt_refresh_iff hp).2 ⟨rfl, hf⟩⟩
  | none =>
    cases hm : o.malloc with
    | none =>
      have hsame : AllOrNothing s k ⟨-1, m, s⟩ := .inr ⟨rfl, rfl, rfl, rfl, rfl⟩
      have hret : natProcessPacket E now o s m = _ := natProcessPacket_noMemory hk hd hp hm
      constructor
      · intro _ p hp
        cases hp
      · intro _
        exact ⟨_, hret, hsame⟩
    | some p =>
      rw [hsent (natProcessPacket_opened hk hd hp hm)]
      constructor
      · rintro ⟨q, f, hinst⟩ p' hp'
        obtain rfl := Option.some.inj hp'
        exact ((installedAt_created_iff hp).1 hinst).2.2
      · intro hadd
        exact ⟨p, _, (installedAt_created_iff hp).2 ⟨rfl, rfl, hadd p rfl⟩⟩

/-- In the states that a run reaches a new entry can be installed only by two inserts that succeed: no table
leads to memory that is not allocated. -/
theorem installable_iff (h : Run (Step E) (natInit ip) evs s) (hen : Enabled s (.packet now m o))
    (hp : s.fwdHash k = none) :
    Installable o s k ↔ (o.malloc ≠ none → o.addFwd = true ∧ o.addRev = true) := by
  unfold Installable
  rw [hp]
  cases hm : o.malloc with
  | none => simp
  | some p =>
    have hfree : s.revHash (freshEntry s k).revKey ≠ some p := by
      intro hrev
      obtain ⟨e, he, -⟩ := (run_noDangling h).rev _ p hrev
      simp [hen p hm] at he
    simp [hfree]

/-! ### An insert that fails -/

/-- The first packet of `flowA`, when there is room for its entry in `fwd_hash` only. -/
theorem half_installed :
    ¬ ∀ (s : NatState) (m : Mbuf) (k : NatKey) (o : Outcome) (now : ℕ), parse m = some k →
      k.dstIp ≠ s.publicIp → ∃ r, natProcessPacket ghz now o s m = some r ∧ AllOrNothing s k r := by
  intro h
  have hparse := parse_webFlow (netAddr 10 0 0 1) (netAddr 8 8 8 8)
  obtain ⟨r, hr, hall⟩ := h (natInit mainPublicIp) _ flowA ⟨some 0, true, false⟩ 0 hparse (by decide)
  have hopened : natProcessPacket ghz 0 ⟨some 0, true, false⟩ (natInit mainPublicIp) _ = _ :=
    natProcessPacket_opened hparse (by decide) rfl rfl
  obtain rfl := Option.some.inj (hopened.symm.trans hr)
  rcases hall with ⟨-, p, e, hinst⟩ | ⟨hret, -⟩
  · obtain ⟨-, -, -, hadd⟩ := (installedAt_created_iff rfl).1 hinst
    exact absurd hadd (by decide)
  · exact absurd hret (by decide)

theorem create_all_or_nothing_flowA :
    ∃ r, natProcessPacket ghz 0 (success 0) (natInit mainPublicIp) (keyFrame flowA) = some r ∧
      AllOrNothing (natInit mainPublicIp) flowA r :=
  (create_all_or_nothing (parse_webFlow _ _) (by decide)).2 fun _ _ => ⟨rfl, .inl rfl⟩

end DpdkBeginners.Napt
