import DpdkBeginners.Pool.Packet

/-!
# Slots and the loops over them

`live` is the pool as a heap of slots: the slots in use, by their index.  Writing one slot updates it
at one place (`live_setEntry`), so the lemmas of `Exact` apply to `outbound_map`.

* `released_expiryTimerCb`: the expiry callback releases the idle slots and deletes their keys, and
  nothing else.
* `clearEntries_entries`: clearing releases every slot.
* `SameConfig`: the size, the public addresses and the static mappings never change.
-/

namespace DpdkBeginners.Pool

open DpdkBeginners.Rte DpdkBeginners.Lib

variable {E : Env} {p q r : NatPool} {m : Mbuf} {now : U64} {i j slot : ℕ} {e : NatPoolEntry}
  {ip src : U32}

/-! ### The slots in use -/

def live (p : NatPool) (i : ℕ) : Option NatPoolEntry :=
  if i < p.poolSize.toNat ∧ (p.entries i).inUse = true then some (p.entries i) else none

theorem live_eq_some :
    live p i = some e ↔ i < p.poolSize.toNat ∧ (p.entries i).inUse = true ∧ p.entries i = e := by
  unfold live
  by_cases h : i < p.poolSize.toNat ∧ (p.entries i).inUse = true
  · rw [if_pos h, Option.some.injEq]
    exact ⟨fun he => ⟨h.1, h.2, he⟩, fun he => he.2.2⟩
  · rw [if_neg h]
    constructor
    · intro he
      cases he
    · intro he
      exact absurd ⟨he.1, he.2.1⟩ h

theorem live_eq_none (h : (p.entries i).inUse = false) : live p i = none := by simp [live, h]

theorem setEntry_entries (p : NatPool) (i : ℕ) (e : NatPoolEntry) :
    (p.setEntry i e).entries = Function.update p.entries i e := rfl

theorem live_setEntry (hi : i < p.poolSize.toNat) (e : NatPoolEntry) :
    live (p.setEntry i e) = Function.update (live p) i (if e.inUse = true then some e else none) := by
  funext j
  unfold live NatPool.setEntry
  by_cases hj : j = i
  · subst hj
    simp [hi]
  · simp [Function.update_of_ne hj]

/-! ### What never changes -/

/-- The same size, idle time, static mappings and public addresses. -/
structure SameConfig (p q : NatPool) : Prop where
  poolSize : q.poolSize = p.poolSize
  idleTsc : q.idleTsc = p.idleTsc
  inboundMap : q.inboundMap = p.inboundMap
  publicIp : ∀ i, (q.entries i).publicIp = (p.entries i).publicIp

theorem SameConfig.refl (p : NatPool) : SameConfig p p := ⟨rfl, rfl, rfl, fun _ => rfl⟩

theorem SameConfig.trans (h₁ : SameConfig p q) (h₂ : SameConfig q r) : SameConfig p r :=
  ⟨h₂.poolSize.trans h₁.poolSize, h₂.idleTsc.trans h₁.idleTsc, h₂.inboundMap.trans h₁.inboundMap,
    fun i => (h₂.publicIp i).trans (h₁.publicIp i)⟩

theorem sameConfig_setEntry (h : e.publicIp = (p.entries i).publicIp) :
    SameConfig p (p.setEntry i e) := by
  refine ⟨rfl, rfl, rfl, ?_⟩
  intro j
  rw [setEntry_entries]
  by_cases hj : j = i
  · subst hj
    rw [Function.update_self, h]
  · rw [Function.update_of_ne hj]

theorem SameConfig.setOutboundMap (h : SameConfig p q) (ix : RteHash U32 ℕ) :
    SameConfig p { q with outboundMap := ix } :=
  ⟨h.poolSize, h.idleTsc, h.inboundMap, h.publicIp⟩

theorem sameConfig_touched : SameConfig p (touched p slot now) := sameConfig_setEntry rfl

theorem sameConfig_assigned : SameConfig p (assigned p slot src now) := by
  have h : SameConfig p (p.setEntry slot
      { p.entries slot with privateIp := src, inUse := true, lastSeenTsc := now }) :=
    sameConfig_setEntry rfl
  exact h.setOutboundMap _

/-! ### The expiry loop -/

/-- Slot `i` is in use and has been idle for too long. -/
def Idle (p : NatPool) (now : U64) (i : ℕ) : Prop :=
  (p.entries i).inUse = true ∧ p.idleTsc ≤ now - (p.entries i).lastSeenTsc

instance : Decidable (Idle p now i) := inferInstanceAs (Decidable (_ ∧ _))

theorem expireSlot_idle (h : Idle p now i) :
    expireSlot p now i =
      { p.setEntry i (p.entries i).release with
        outboundMap := rteHashDelKey p.outboundMap (p.entries i).privateIp } := by
  unfold expireSlot
  rw [if_neg (by simp [h.1]), if_pos h.2]
  rfl

theorem expireSlot_not_idle (h : ¬ Idle p now i) : expireSlot p now i = p := by
  unfold expireSlot
  by_cases hu : (p.entries i).inUse = false
  · rw [if_pos hu]
  · rw [if_neg hu, if_neg]
    intro hidle
    exact h ⟨by simpa using hu, hidle⟩

/-- `q` is `p` with the idle ones among the first `n` slots released. -/
structure Released (p : NatPool) (now : U64) (n : ℕ) (q : NatPool) : Prop where
  entries : ∀ i, q.entries i =
    if i < n ∧ Idle p now i then (p.entries i).release else p.entries i
  removed : ∀ i < n, Idle p now i → q.outboundMap (p.entries i).privateIp = none
  kept : ∀ ip, (∀ i < n, Idle p now i → (p.entries i).privateIp ≠ ip) →
    q.outboundMap ip = p.outboundMap ip
  config : SameConfig p q

theorem Released.expireSlot {n : ℕ} (h : Released p now n q) :
    Released p now (n + 1) (expireSlot q now n) := by
  have hn : q.entries n = p.entries n := by
    rw [h.entries n, if_neg (by omega)]
  have hidle : Idle q now n ↔ Idle p now n := by
    unfold Idle
    rw [hn, h.config.idleTsc]
  by_cases hi : Idle p now n
  · rw [expireSlot_idle (hidle.2 hi), hn]
    refine ⟨?_, ?_, ?_, h.config.trans ((sameConfig_setEntry ?_).setOutboundMap _)⟩
    · intro i
      rw [setEntry_entries]
      by_cases hin : i = n
      · subst hin
        simp [hi]
      · have hlt : i < n ↔ i < n + 1 := by omega
        rw [Function.update_of_ne hin, h.entries i]
        simp only [hlt]
    · intro i hin hii
      show Function.update q.outboundMap _ none _ = none
      by_cases hk : (p.entries i).privateIp = (p.entries n).privateIp
      · rw [hk, Function.update_self]
      · have hne : i ≠ n := fun h => hk (h ▸ rfl)
        rw [Function.update_of_ne hk, h.removed i (by omega) hii]
    · intro ip hip
      show Function.update q.outboundMap _ none ip = _
      rw [Function.update_of_ne (hip n (by omega) hi).symm,
        h.kept ip fun i hin => hip i (by omega)]
    · rw [hn]
      rfl
  · rw [expireSlot_not_idle (hidle.not.2 hi)]
    refine ⟨?_, ?_, ?_, h.config⟩
    · intro i
      rw [h.entries i]
      by_cases hin : i = n
      · subst hin
        simp [hi]
      · have hlt : i < n ↔ i < n + 1 := by omega
        simp only [hlt]
    · intro i hin hii
      have hne : i ≠ n := fun h => hi (h ▸ hii)
      exact h.removed i (by omega) hii
    · intro ip hip
      exact h.kept ip fun i hin => hip i (by omega)

/-- **`expiry_timer_cb`** releases the idle slots, deletes their keys, and changes nothing else. -/
theorem released_expiryTimerCb (p : NatPool) (now : U64) :
    Released p now p.poolSize.toNat (expiryTimerCb p now) := by
  unfold expiryTimerCb
  induction p.poolSize.toNat with
  | zero =>
    refine ⟨?_, fun i hi => absurd hi (by omega), fun _ _ => rfl, .refl p⟩
    intro i
    simp
  | succ n ih =>
    rw [List.range_succ, List.foldl_append]
    exact ih.expireSlot

/-! ### The clearing loop -/

theorem clearEntries_entries (p : NatPool) :
    (∀ i < p.poolSize.toNat, ((clearEntries p).entries i).inUse = false) ∧
      SameConfig p (clearEntries p) := by
  unfold clearEntries
  induction p.poolSize.toNat with
  | zero => exact ⟨fun i hi => absurd hi (by omega), .refl p⟩
  | succ n ih =>
    obtain ⟨hfree, hconf⟩ := ih
    rw [List.range_succ, List.foldl_append]
    refine ⟨?_, hconf.trans (sameConfig_setEntry rfl)⟩
    intro i hi
    rw [List.foldl_cons, List.foldl_nil, setEntry_entries]
    by_cases hin : i = n
    · subst hin
      rw [Function.update_self]
      rfl
    · rw [Function.update_of_ne hin]
      exact hfree i (by omega)

theorem live_clearEntries (p : NatPool) (i : ℕ) : live (clearEntries p) i = none := by
  obtain ⟨hfree, hconf⟩ := clearEntries_entries p
  unfold live
  rw [if_neg]
  rintro ⟨hi, hu⟩
  rw [hconf.poolSize] at hi
  simp [hfree i hi] at hu

end DpdkBeginners.Pool
