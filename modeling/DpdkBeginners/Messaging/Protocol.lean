import DpdkBeginners.Messaging.Defs
import Mathlib.Data.List.Range

/-!
# No number before the answer, and none lost

The primary sends no number before the secondary has answered a check (`handshake`).  As it does not look at what
`rte_ring_enqueue` returns, numbers may get lost: not in any run if and only if the ring has room for all of them
(`nothing_lost_iff`), and then each state leads on to one in which all have been received, in order (`delivery`).
-/

namespace DpdkBeginners.Messaging

open DpdkBeginners.Rte DpdkBeginners.Lib

variable {n cap : ℕ} {s t : State} {ev : Event} {evs : List Event}

/-! ### The invariant -/

/-- How many numbers have been enqueued or refused. -/
def Primary.tried (n : ℕ) : Primary → ℕ
  | .enqueue i => i
  | .print i => i + 1
  | .returned => n
  | _ => 0

/-- How many numbers have been printed. -/
def Primary.printed (n : ℕ) : Primary → ℕ
  | .enqueue i => i
  | .print i => i
  | .returned => n
  | _ => 0

/-- The number at hand is one of those to be sent, and the secondary is ready. -/
def Primary.Sound (n : ℕ) (ready : Bool) : Primary → Prop
  | .wait => ready = true
  | .enqueue i => i < n ∧ ready = true
  | .print i => i < n ∧ ready = true
  | .returned => ready = true
  | _ => True

/-- The invariant. -/
structure Inv (n cap : ℕ) (s : State) : Prop where
  answered : s.secondaryReady = true ∨ 0 < s.replies → s.answered = true
  registered : s.answered = true → s.secondary ≠ .register
  sound : s.primary.Sound n s.secondaryReady
  created : s.primary ≠ .create → s.ringCreated = true
  queue : s.enqueued = s.received ++ s.ring
  sorted : s.enqueued.Sublist (List.range (s.primary.tried n))
  each : (s.enqueued ++ s.lost).Perm (List.range (s.primary.tried n))
  sent : s.sent = List.range (s.primary.printed n)
  room : s.ring.length ≤ cap
  kept : n ≤ cap → s.lost = []

theorem inv_init (n cap : ℕ) : Inv n cap init :=
  ⟨by simp [init], nofun, trivial, fun h => absurd rfl h, rfl, List.Sublist.refl _, List.Perm.refl _, rfl,
    Nat.zero_le _, fun _ => rfl⟩

theorem tried_next {i : ℕ} (hi : i ≤ n) : (Primary.next n i).tried n = i ∧ (Primary.next n i).printed n = i ∧
    ∀ ready, ready = true → (Primary.next n i).Sound n ready := by
  unfold Primary.next
  by_cases hlt : i < n
  · rw [if_pos hlt]
    exact ⟨rfl, rfl, fun ready hr => ⟨hlt, hr⟩⟩
  · rw [if_neg hlt]
    have hn : n = i := by omega
    exact ⟨hn, hn, fun ready hr => hr⟩

/-! ### Steps -/

theorem Inv.goto (hs : Inv n cap s) {p : Primary} (checks : ℕ) (hcreated : s.ringCreated = true)
    (htried : p.tried n = s.primary.tried n) (hprinted : p.printed n = s.primary.printed n)
    (hsound : p.Sound n s.secondaryReady) : Inv n cap { s with checks := checks, primary := p } where
  answered := hs.answered
  registered := hs.registered
  sound := hsound
  created _ := hcreated
  queue := hs.queue
  sorted := htried ▸ hs.sorted
  each := htried ▸ hs.each
  sent := hprinted ▸ hs.sent
  room := hs.room
  kept := hs.kept

theorem Inv.enqueue (hs : Inv n cap s) {i : ℕ} (hp : s.primary = .enqueue i) (delivered : Bool) :
    Inv n cap (stepPrimary n cap s delivered) := by
  obtain ⟨hanswered, hregistered, hsound, hcreated, hqueue, hsorted, heach, hsent, hroom, hkept⟩ := hs
  rw [hp] at hsorted heach hsent hcreated hsound
  have hlen : s.ring.length ≤ i := by
    have hle := hsorted.length_le
    rw [hqueue, List.length_append] at hle
    simp only [Primary.tried, List.length_range] at hle
    omega
  simp only [Messaging.stepPrimary, hp]
  by_cases hlt : s.ring.length < cap
  · rw [rteRingEnqueue_of_lt hlt]
    refine ⟨hanswered, hregistered, hsound, fun _ => hcreated nofun, ?_, ?_, ?_, hsent, ?_, hkept⟩
    · simp only [hqueue, List.append_assoc]
    · simp only [Primary.tried, List.range_succ]
      exact hsorted.append (List.Sublist.refl _)
    · simp only [Primary.tried, List.range_succ, List.append_assoc]
      refine (List.perm_append_comm.append_left _).trans ?_
      rw [← List.append_assoc]
      exact heach.append_right _
    · simp only [List.length_append, List.length_singleton]
      omega
  · have hfull : rteRingEnqueue cap s.ring i = none := if_neg hlt
    rw [hfull]
    refine ⟨hanswered, hregistered, hsound, fun _ => hcreated nofun, hqueue, ?_, ?_, hsent, hroom, fun hn => ?_⟩
    · simp only [Primary.tried, List.range_succ]
      exact hsorted.trans (List.sublist_append_left ..)
    · simp only [Primary.tried, List.range_succ, ← List.append_assoc]
      exact heach.append_right _
    · -- the ring is full, with fewer numbers than are sent
      have hi := hsound.1
      omega

theorem Inv.stepPrimary (hs : Inv n cap s) (delivered : Bool) : Inv n cap (stepPrimary n cap s delivered) := by
  have hcreated := hs.created
  cases hp : s.primary with
  | enqueue i => exact hs.enqueue hp delivered
  | create =>
    simp only [Messaging.stepPrimary, hp]
    obtain ⟨hanswered, hregistered, hsound, -, hqueue, hsorted, heach, hsent, hroom, hkept⟩ := hs
    rw [hp] at hsorted heach hsent
    exact ⟨hanswered, hregistered, trivial, fun _ => rfl, hqueue, hsorted, heach, hsent, hroom, hkept⟩
  | register =>
    rw [hp] at hcreated
    simp only [Messaging.stepPrimary, hp]
    exact hs.goto _ (hcreated nofun) (by rw [hp]; rfl) (by rw [hp]; rfl) trivial
  | check =>
    rw [hp] at hcreated
    simp only [Messaging.stepPrimary, hp]
    by_cases hready : s.secondaryReady = true
    · rw [if_pos hready]
      exact hs.goto _ (hcreated nofun) (by rw [hp]; rfl) (by rw [hp]; rfl) hready
    · rw [if_neg hready]
      exact hs.goto _ (hcreated nofun) (by rw [hp]; rfl) (by rw [hp]; rfl) trivial
  | send =>
    rw [hp] at hcreated
    simp only [Messaging.stepPrimary, hp]
    exact hs.goto _ (hcreated nofun) (by rw [hp]; rfl) (by rw [hp]; rfl) trivial
  | wait =>
    have hsound := hs.sound
    rw [hp] at hcreated hsound
    have hready : s.secondaryReady = true := hsound
    simp only [Messaging.stepPrimary, hp]
    obtain ⟨htried, hprinted, hnext⟩ := tried_next (Nat.zero_le n)
    rw [if_pos hready]
    exact hs.goto _ (hcreated nofun) (by rw [hp, htried]; rfl) (by rw [hp, hprinted]; rfl) (hnext _ hready)
  | print i =>
    simp only [Messaging.stepPrimary, hp]
    obtain ⟨hanswered, hregistered, hsound, -, hqueue, hsorted, heach, hsent, hroom, hkept⟩ := hs
    rw [hp] at hsorted heach hsent hcreated hsound
    obtain ⟨htried, hprinted, hnext⟩ := tried_next (Nat.succ_le_of_lt hsound.1)
    refine ⟨hanswered, hregistered, hnext _ hsound.2, fun _ => hcreated nofun, hqueue, ?_, ?_, ?_, hroom, hkept⟩
    · exact htried.symm ▸ hsorted
    · exact htried.symm ▸ heach
    · rw [hprinted, List.range_succ]
      exact congrArg (fun l => l ++ [i]) hsent
  | returned =>
    simp only [Messaging.stepPrimary, hp]
    exact hs

theorem Inv.stepSecondary (hs : Inv n cap s) : Inv n cap (stepSecondary s) := by
  obtain ⟨hanswered, hregistered, hsound, hcreated, hqueue, hsorted, heach, hsent, hroom, hkept⟩ := hs
  cases hsec : s.secondary with
  | register =>
    simp only [Messaging.stepSecondary, hsec]
    exact ⟨hanswered, fun _ => nofun, hsound, hcreated, hqueue, hsorted, heach, hsent, hroom, hkept⟩
  | lookup =>
    simp only [Messaging.stepSecondary, hsec]
    refine ⟨hanswered, fun _ => ?_, hsound, hcreated, hqueue, hsorted, heach, hsent, hroom, hkept⟩
    cases s.ringCreated <;> exact nofun
  | dequeue =>
    cases hring : s.ring with
    | nil =>
      simp only [Messaging.stepSecondary, hsec, hring, rteRingDequeue]
      exact ⟨hanswered, hregistered, hsound, hcreated, hqueue, hsorted, heach, hsent, hroom, hkept⟩
    | cons i ring =>
      simp only [Messaging.stepSecondary, hsec, hring, rteRingDequeue]
      rw [hring] at hqueue hroom
      refine ⟨hanswered, fun _ => nofun, hsound, hcreated, ?_, hsorted, heach, hsent, Nat.le_of_succ_le hroom, hkept⟩
      simp only [hqueue, List.append_assoc, List.singleton_append]

theorem Inv.checkCb (hs : Inv n cap s) (delivered : Bool) : Inv n cap (checkCb s delivered) := by
  obtain ⟨hanswered, hregistered, hsound, hcreated, hqueue, hsorted, heach, hsent, hroom, hkept⟩ := hs
  unfold Messaging.checkCb
  by_cases hsec : s.secondary = .register
  · rw [if_pos hsec]
    exact ⟨hanswered, hregistered, hsound, hcreated, hqueue, hsorted, heach, hsent, hroom, hkept⟩
  · rw [if_neg hsec]
    exact ⟨fun _ => rfl, fun _ => hsec, hsound, hcreated, hqueue, hsorted, heach, hsent, hroom, hkept⟩

theorem Primary.Sound.ready {ready : Bool} {p : Primary} (h : p.Sound n ready) : p.Sound n true := by
  cases p with
  | wait => exact rfl
  | enqueue i => exact ⟨h.1, rfl⟩
  | print i => exact ⟨h.1, rfl⟩
  | returned => exact rfl
  | _ => trivial

theorem Inv.readyCb (hs : Inv n cap s) (hreply : 0 < s.replies) : Inv n cap (readyCb s) :=
  ⟨fun _ => hs.answered (.inr hreply), hs.registered, hs.sound.ready, hs.created, hs.queue, hs.sorted, hs.each,
    hs.sent, hs.room, hs.kept⟩

theorem Inv.step (hs : Inv n cap s) (hst : Step n cap s ev t) : Inv n cap t := by
  obtain ⟨hen, rfl⟩ := hst
  cases ev with
  | primary delivered => exact hs.stepPrimary delivered
  | secondary => exact hs.stepSecondary
  | checkCb delivered => exact hs.checkCb delivered
  | readyCb => exact hs.readyCb hen.1

theorem run_inv (h : Run (Step n cap) init evs s) : Inv n cap s :=
  h.invariant (inv_init n cap) fun _ _ _ ha hst => ha.step hst

/-- **The handshake.**  In every interleaving, no number has been enqueued or refused before the secondary, with its
callback registered, has answered a check; the numbers are received in the order in which they were enqueued, each one
once; each of those that the primary is through with has been enqueued or refused; and it prints all of them. -/
theorem handshake (h : Run (Step n cap) init evs s) :
    (s.answered = false → s.enqueued = [] ∧ s.lost = [] ∧ s.sent = []) ∧
    (s.answered = true → s.secondary ≠ .register) ∧
    s.received <+: s.enqueued ∧ s.enqueued.Sublist (List.range n) ∧
    (s.enqueued ++ s.lost).Perm (List.range (s.primary.tried n)) ∧ s.sent = List.range (s.primary.printed n) := by
  have hs := run_inv h
  refine ⟨fun hno => ?_, hs.registered, ?_, ?_, hs.each, hs.sent⟩
  · have hready : s.secondaryReady ≠ true := fun hr => by
      rw [hs.answered (.inl hr)] at hno
      cases hno
    have hnone : s.primary.tried n = 0 ∧ s.primary.printed n = 0 := by
      have hsound := hs.sound
      cases hp : s.primary with
      | enqueue i => rw [hp] at hsound; exact absurd hsound.2 hready
      | print i => rw [hp] at hsound; exact absurd hsound.2 hready
      | returned => rw [hp] at hsound; exact absurd hsound hready
      | _ => exact ⟨rfl, rfl⟩
    have heach := hs.each
    rw [hnone.1] at heach
    obtain ⟨henq, hlost⟩ := List.append_eq_nil_iff.1 heach.eq_nil
    exact ⟨henq, hlost, by rw [hs.sent, hnone.2]; rfl⟩
  · rw [hs.queue]
    exact List.prefix_append ..
  · have hle : s.primary.tried n ≤ n := by
      have hsound := hs.sound
      cases hp : s.primary with
      | enqueue i => rw [hp] at hsound; exact Nat.le_of_lt hsound.1
      | print i => rw [hp] at hsound; exact hsound.1
      | returned => exact Nat.le_refl n
      | _ => exact Nat.zero_le n
    exact hs.sorted.trans (List.range_sublist.2 hle)

/-- The first check gets lost and the second one is answered; the secondary has the number 0, and 1 is in the ring. -/
def secondEvents : List Event :=
  [.primary true, .primary true, .primary true, .primary false, .secondary, .primary true, .primary true, .checkCb true,
    .readyCb, .primary true, .primary true, .primary true, .secondary, .secondary, .primary true, .primary true]

/-- The state after them. -/
def afterSecond : State := ⟨.print 1, .dequeue, true, 0, 0, true, [1], true, [0, 1], [], [0], [0]⟩

theorem run_afterSecond : Run (Step mainCount mainCapacity) init secondEvents afterSecond := by
  unfold secondEvents
  iterate 7 refine Run.cons_iff.2 ⟨_, ⟨trivial, rfl⟩, ?_⟩
  -- the two callbacks
  refine Run.cons_iff.2 ⟨_, ⟨Nat.one_pos, rfl⟩, Run.cons_iff.2 ⟨_, ⟨⟨Nat.one_pos, nofun⟩, rfl⟩, ?_⟩⟩
  iterate 6 refine Run.cons_iff.2 ⟨_, ⟨trivial, rfl⟩, ?_⟩
  exact Run.single_iff.2 ⟨trivial, rfl⟩

theorem handshake_afterSecond : afterSecond.secondary ≠ .register ∧ afterSecond.received <+: afterSecond.enqueued ∧
    (afterSecond.enqueued ++ afterSecond.lost).Perm (List.range 2) ∧ afterSecond.sent = List.range 1 := by
  obtain ⟨-, hregistered, hreceived, -, heach, hsent⟩ := handshake run_afterSecond
  exact ⟨hregistered rfl, hreceived, heach, hsent⟩

/-! ### Runs -/

theorem step_primary (n cap : ℕ) (s : State) (delivered : Bool) :
    Step n cap s (.primary delivered) (Messaging.stepPrimary n cap s delivered) := ⟨trivial, rfl⟩

theorem step_secondary (n cap : ℕ) (s : State) : Step n cap s .secondary (Messaging.stepSecondary s) := ⟨trivial, rfl⟩

theorem exists_registered (n cap : ℕ) (s : State) : ∃ es t, Run (Step n cap) s es t ∧ t.secondary ≠ .register ∧
    t.primary = s.primary ∧ t.secondaryReady = s.secondaryReady ∧ t.ring = s.ring := by
  by_cases hsec : s.secondary = .register
  · refine ⟨_, _, Run.single_iff.2 (step_secondary n cap s), ?_⟩
    simp [Messaging.stepSecondary, hsec]
  · exact ⟨[], s, .refl, hsec, rfl, rfl, rfl⟩

theorem exists_answered (n cap : ℕ) (hp : s.primary = .send) (hsec : s.secondary ≠ .register) :
    ∃ es t, Run (Step n cap) s es t ∧ t.primary = .check ∧ t.secondaryReady = true ∧ t.ring = s.ring := by
  have h₁ : Step n cap s (.primary true) { s with checks := s.checks + 1, primary := .check } :=
    ⟨trivial, by simp [Messaging.step, Messaging.stepPrimary, hp]⟩
  have h₂ : Step n cap { s with checks := s.checks + 1, primary := .check } (.checkCb true)
      { s with checks := s.checks, primary := .check, replies := s.replies + 1, answered := true } :=
    ⟨Nat.succ_pos _, by simp [Messaging.step, Messaging.checkCb, hsec]⟩
  have h₃ := (⟨⟨Nat.succ_pos _, nofun⟩, rfl⟩ : Step n cap
    { s with checks := s.checks, primary := .check, replies := s.replies + 1, answered := true } .readyCb _)
  exact ⟨_, _, ((Run.refl.snoc h₁).snoc h₂).snoc h₃, rfl, rfl, rfl⟩

theorem exists_ready (n cap : ℕ) (hp : s.primary = .check ∨ s.primary = .send) :
    ∃ es t, Run (Step n cap) s es t ∧ t.primary = .check ∧ t.secondaryReady = true ∧ t.ring = s.ring := by
  obtain ⟨es, t, hrun, hsec, hprimary, hready, hring⟩ := exists_registered n cap s
  rw [← hprimary] at hp
  rw [← hring]
  rcases hp with hp | hp
  · by_cases hr : t.secondaryReady = true
    · exact ⟨es, t, hrun, hp, hr, rfl⟩
    · -- the test fails, so a check is sent
      have hst := step_primary n cap t true
      simp only [Messaging.stepPrimary, hp, if_neg hr] at hst
      obtain ⟨fs, u, hrest, hu⟩ := exists_answered n cap (s := { t with primary := .send }) rfl hsec
      exact ⟨_, u, (hrun.snoc hst).append hrest, hu⟩
  · obtain ⟨fs, u, hrest, hu⟩ := exists_answered n cap hp hsec
    exact ⟨_, u, hrun.append hrest, hu⟩

theorem exists_next (n cap : ℕ) (hp : s.primary = .check) (hready : s.secondaryReady = true) :
    ∃ es t, Run (Step n cap) s es t ∧ t.primary = .next n 0 ∧ t.ring = s.ring := by
  have h₁ := step_primary n cap s true
  simp only [Messaging.stepPrimary, hp, if_pos hready] at h₁
  have h₂ := step_primary n cap { s with primary := .wait } true
  simp only [Messaging.stepPrimary, if_pos hready] at h₂
  exact ⟨_, _, (Run.refl.snoc h₁).snoc h₂, rfl, rfl⟩

/-! ### When a number is lost -/

/-- Without the secondary, the numbers stay in the ring. -/
theorem exists_enqueue (hlt : cap < n) {i : ℕ} (hi : i ≤ cap) :
    ∃ es t, Run (Step n cap) init es t ∧ t.primary = .enqueue i ∧ t.ring.length = i := by
  induction i with
  | zero =>
    have h₁ := step_primary n cap init true
    have h₂ := step_primary n cap (Messaging.stepPrimary n cap init true) true
    obtain ⟨es, t, hrun, hp, hready, hring⟩ := exists_ready n cap
      (s := Messaging.stepPrimary n cap (Messaging.stepPrimary n cap init true) true) (.inl rfl)
    obtain ⟨fs, u, hrest, hu, hring'⟩ := exists_next n cap hp hready
    refine ⟨_, u, (((Run.refl.snoc h₁).snoc h₂).append hrun).append hrest, ?_, ?_⟩
    · rw [hu, Primary.next, if_pos (by omega)]
    · rw [hring', hring]
      rfl
  | succ i ih =>
    obtain ⟨es, t, hrun, hp, hring⟩ := ih (by omega)
    have h₁ := step_primary n cap t true
    have hroom : t.ring.length < cap := by omega
    simp only [Messaging.stepPrimary, hp, rteRingEnqueue_of_lt hroom] at h₁
    have h₂ := step_primary n cap
      { t with ring := t.ring ++ [i], enqueued := t.enqueued ++ [i], primary := .print i } true
    refine ⟨_, _, (hrun.snoc h₁).snoc h₂, ?_, ?_⟩
    · simp only [Messaging.stepPrimary, Primary.next]
      rw [if_pos (by omega)]
    · simp only [Messaging.stepPrimary, List.length_append, List.length_singleton, hring]

/-- **No number is lost** in any run if and only if the ring has room for all of them. -/
theorem nothing_lost_iff (n cap : ℕ) :
    (∀ evs s, Run (Step n cap) init evs s → s.lost = []) ↔ n ≤ cap := by
  constructor
  · intro hall
    by_contra hlt
    obtain ⟨es, t, hrun, hp, hring⟩ := exists_enqueue (Nat.lt_of_not_le hlt) (Nat.le_refl cap)
    have hst := step_primary n cap t true
    have hfull : rteRingEnqueue cap t.ring cap = none := if_neg (by omega)
    simp only [Messaging.stepPrimary, hp, hfull] at hst
    exact List.append_ne_nil_of_right_ne_nil _ (List.cons_ne_nil _ _) (hall _ _ (hrun.snoc hst))
  · intro hle evs s hrun
    exact (run_inv hrun).kept hle

/-! ### Delivery -/

/-- The primary has returned, and the ring is empty. -/
def Final (s : State) : Prop := s.primary = .returned ∧ s.ring = []

/-- How many steps the secondary is away from its loop. -/
def Secondary.left : Secondary → ℕ
  | .register => 2
  | .lookup => 1
  | .dequeue => 0

/-- How far the primary is from its end. -/
def Primary.left (n : ℕ) (ready : Bool) : Primary → ℕ
  | .create => 2 * n + 7
  | .register => 2 * n + 6
  | .check => if ready then 2 * n + 4 else 2 * n + 5
  | .send => 2 * n + 5
  | .wait => 2 * n + 3
  | .enqueue i => 2 * (n - i) + 2
  | .print i => 2 * (n - i) + 1
  | .returned => 0

/-- The rank: first the primary runs to its end, then the secondary empties the ring. -/
def rank (n : ℕ) (s : State) : ℕ :=
  if s.primary = .returned then s.secondary.left + s.ring.length
  else n + 3 + s.primary.left n s.secondaryReady

theorem rank_returned (hs : Inv n cap s) (hp : s.primary = .returned) : rank n s ≤ n + 2 := by
  have hlen := hs.sorted.length_le
  rw [hs.queue, hp, List.length_append] at hlen
  simp only [Primary.tried, List.length_range] at hlen
  have hsec : s.secondary.left ≤ 2 := by cases s.secondary <;> decide
  rw [rank, if_pos hp]
  omega

theorem rank_of_ne (hp : s.primary ≠ .returned) : rank n s = n + 3 + s.primary.left n s.secondaryReady :=
  if_neg hp

theorem stepPrimary_secondaryReady (s : State) (delivered : Bool) :
    (Messaging.stepPrimary n cap s delivered).secondaryReady = s.secondaryReady := by
  unfold Messaging.stepPrimary
  split
  case h_6 => split <;> rfl
  all_goals rfl

theorem exists_of_step (hs : Inv n cap s) {p : Primary} (p' : Primary) (hp : s.primary = p) (hne : p ≠ .returned)
    (hp' : (Messaging.stepPrimary n cap s true).primary = p')
    (hlt : p'.left n s.secondaryReady < p.left n s.secondaryReady) :
    ∃ es t, Run (Step n cap) s es t ∧ Inv n cap t ∧ (Final t ∨ rank n t < rank n s) := by
  have hinv := hs.stepPrimary true
  refine ⟨_, _, Run.single_iff.2 (step_primary n cap s true), hinv, .inr ?_⟩
  rw [← hp] at hne hlt
  rw [rank_of_ne hne]
  by_cases hreturned : (Messaging.stepPrimary n cap s true).primary = .returned
  · have hle := rank_returned hinv hreturned
    omega
  · rw [rank_of_ne hreturned, hp', stepPrimary_secondaryReady]
    omega

theorem left_next (i : ℕ) (ready : Bool) : (Primary.next n i).left n ready ≤ 2 * (n - i) + 2 := by
  unfold Primary.next
  split
  · exact Nat.le_refl _
  · exact Nat.zero_le _

theorem exists_of_returned (hs : Inv n cap s) (hp : s.primary = .returned) (hring : s.ring ≠ []) :
    ∃ es t, Run (Step n cap) s es t ∧ Inv n cap t ∧ (Final t ∨ rank n t < rank n s) := by
  refine ⟨_, _, Run.single_iff.2 (step_secondary n cap s), hs.stepSecondary, .inr ?_⟩
  have hcreated := hs.created (by rw [hp]; exact nofun)
  obtain ⟨i, ring, hcons⟩ := List.exists_cons_of_ne_nil hring
  unfold rank
  cases hsec : s.secondary with
  | register => simp [Messaging.stepSecondary, hsec, hp, Secondary.left]
  | lookup => simp [Messaging.stepSecondary, hsec, hp, hcreated, Secondary.left]
  | dequeue => simp [Messaging.stepSecondary, hsec, hp, hcons, rteRingDequeue, Secondary.left]

theorem Inv.exists_progress (hs : Inv n cap s) (hfinal : ¬ Final s) :
    ∃ es t, Run (Step n cap) s es t ∧ Inv n cap t ∧ (Final t ∨ rank n t < rank n s) := by
  have hsound := hs.sound
  cases hp : s.primary with
  | create => exact exists_of_step hs .register hp nofun (by simp only [Messaging.stepPrimary, hp]) (Nat.lt_succ_self _)
  | register =>
    refine exists_of_step hs .check hp nofun (by simp only [Messaging.stepPrimary, hp]) ?_
    simp only [Primary.left]
    split <;> omega
  | wait =>
    rw [hp] at hsound
    have hready : s.secondaryReady = true := hsound
    refine exists_of_step hs (.next n 0) hp nofun (by simp only [Messaging.stepPrimary, hp, if_pos hready]) ?_
    exact Nat.lt_succ_of_le (left_next 0 _)
  | enqueue i =>
    have hprint : (Messaging.stepPrimary n cap s true).primary = .print i := by
      simp only [Messaging.stepPrimary, hp]
      split <;> rfl
    exact exists_of_step hs _ hp nofun hprint (Nat.lt_succ_self _)
  | print i =>
    rw [hp] at hsound
    refine exists_of_step hs (.next n (i + 1)) hp nofun (by simp only [Messaging.stepPrimary, hp]) ?_
    have hle := left_next (n := n) (i + 1) s.secondaryReady
    have hi := hsound.1
    have hprint : (Primary.print i).left n s.secondaryReady = 2 * (n - i) + 1 := rfl
    rw [hprint]
    omega
  | returned => exact exists_of_returned hs hp fun hring => hfinal ⟨hp, hring⟩
  | check =>
    by_cases hready : s.secondaryReady = true
    · refine exists_of_step hs .wait hp nofun (by simp only [Messaging.stepPrimary, hp, if_pos hready]) ?_
      simp [Primary.left, hready]
    · obtain ⟨es, t, hrun, ht, htready, -⟩ := exists_ready n cap (.inl hp)
      refine ⟨es, t, hrun, hrun.invariant hs fun _ _ _ ha hst => ha.step hst, .inr ?_⟩
      rw [rank_of_ne (by rw [ht]; exact nofun), rank_of_ne (by rw [hp]; exact nofun), ht, hp, htready]
      simp only [Primary.left, if_pos, if_neg hready]
      omega
  | send =>
    obtain ⟨es, t, hrun, ht, htready, -⟩ := exists_ready n cap (.inr hp)
    refine ⟨es, t, hrun, hrun.invariant hs fun _ _ _ ha hst => ha.step hst, .inr ?_⟩
    rw [rank_of_ne (by rw [ht]; exact nofun), rank_of_ne (by rw [hp]; exact nofun), ht, hp, htready]
    simp only [Primary.left, if_pos]
    omega

/-- **Delivery.**  When the ring has room for all numbers, each state of a run leads on to one in which the primary has
returned and the secondary has received all numbers, in order. -/
theorem delivery (hle : n ≤ cap) (h : Run (Step n cap) init evs s) :
    ∃ evs' t, Run (Step n cap) s evs' t ∧ t.primary = .returned ∧ t.ring = [] ∧ t.received = List.range n := by
  obtain ⟨evs', t, hrun, ht, hp, hring⟩ := Run.reaches (I := Inv n cap) (P := Final) (rank n)
    (fun a ha hfinal => ha.exists_progress hfinal) (run_inv h)
  refine ⟨evs', t, hrun, hp, hring, ?_⟩
  have heach := ht.each
  have hsorted := ht.sorted
  rw [ht.kept hle, List.append_nil, hp] at heach
  rw [hp] at hsorted
  have heq := hsorted.eq_of_length heach.length_eq
  rw [ht.queue, hring, List.append_nil] at heq
  exact heq

theorem delivery_main : ∃ evs t, Run (Step mainCount mainCapacity) init evs t ∧ t.received = [0, 1, 2, 3, 4] := by
  have hle : mainCount ≤ mainCapacity := by decide
  obtain ⟨evs, t, hrun, -, -, hreceived⟩ := delivery hle .refl
  exact ⟨evs, t, hrun, hreceived⟩

end DpdkBeginners.Messaging
