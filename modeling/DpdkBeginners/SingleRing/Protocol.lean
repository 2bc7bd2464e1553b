import DpdkBeginners.SingleRing.Defs
import Mathlib.Algebra.Group.Int.Defs

/-!
# One message at a time

`Phase` lists the situations a run can be in: a request, a response or the exit message is in the hands
of a process or in the ring, and nothing else is anywhere.  Every call leads from one of them to one of
them (`Good.of_step`), whichever process makes it, so the ring is never full when a message is put back,
and the primary receives the responses in the order of its requests (`request_response`).
-/

namespace DpdkBeginners.SingleRing

open DpdkBeginners.Rte DpdkBeginners.Lib

variable {cap : ℕ} {requests : List CInt} {s t : State} {p : Proc} {ps : List Proc} {i : ℕ}
  {v : CInt}

/-! ### The situations of a run -/

/-- The values of the responses to the given requests. -/
def tens (vs : List CInt) : List CInt := vs.map (· * 10)

/-- The messages of the turns with the given requests, and who has consumed them. -/
def turns (vs : List CInt) : List (Proc × Msg) :=
  vs.flatMap fun v => [(.secondary, request v), (.primary, response (request v))]

theorem tens_snoc (vs : List CInt) (v : CInt) : tens (vs ++ [v]) = tens vs ++ [v * 10] := by
  simp [tens]

theorem turns_snoc (vs : List CInt) (v : CInt) :
    turns (vs ++ [v]) =
      turns vs ++ [(.secondary, request v)] ++ [(.primary, response (request v))] := by
  simp [turns]

/-- The situations: the ring, where the processes are, the values received and the messages consumed. -/
inductive Phase (requests : List CInt) :
    List Msg → Primary → Secondary → List CInt → List (Proc × Msg) → Prop
  /-- The primary is about to send its next request. -/
  | sending {i : ℕ} {v : CInt} : requests[i]? = some v →
      Phase requests [] (.sending i (request v)) .polling (tens (requests.take i))
        (turns (requests.take i))
  /-- The request is in the ring. -/
  | requested {i : ℕ} {v : CInt} : requests[i]? = some v →
      Phase requests [request v] (.waiting i) .polling (tens (requests.take i))
        (turns (requests.take i))
  /-- The primary has dequeued its own request. -/
  | requestBack {i : ℕ} {v : CInt} : requests[i]? = some v →
      Phase requests [] (.puttingBack i (request v)) .polling (tens (requests.take i))
        (turns (requests.take i))
  /-- The secondary is about to send the response. -/
  | responding {i : ℕ} {v : CInt} : requests[i]? = some v →
      Phase requests [] (.waiting i) (.responding (response (request v)))
        (tens (requests.take i)) (turns (requests.take i) ++ [(.secondary, request v)])
  /-- The response is in the ring. -/
  | responded {i : ℕ} {v : CInt} : requests[i]? = some v →
      Phase requests [response (request v)] (.waiting i) .polling (tens (requests.take i))
        (turns (requests.take i) ++ [(.secondary, request v)])
  /-- The secondary has dequeued its own response. -/
  | responseBack {i : ℕ} {v : CInt} : requests[i]? = some v →
      Phase requests [] (.waiting i) (.puttingBack (response (request v)))
        (tens (requests.take i)) (turns (requests.take i) ++ [(.secondary, request v)])
  /-- The primary is about to send the exit message. -/
  | exiting : Phase requests [] (.exiting exitMsg) .polling (tens requests) (turns requests)
  /-- The exit message is in the ring. -/
  | exited : Phase requests [exitMsg] .done .polling (tens requests) (turns requests)
  /-- Both processes have ended. -/
  | ended : Phase requests [] .done .done (tens requests)
      (turns requests ++ [(.secondary, exitMsg)])

/-- The invariant: the run is in one of the situations, and every message that was allocated has been
consumed or is still there. -/
structure Good (requests : List CInt) (s : State) : Prop where
  phase : Phase requests s.ring s.primary s.secondary s.received s.consumed
  created : s.created = s.consumed.map Prod.snd ++ s.existing

/-! ### Steps -/

/-- The next turn of the primary begins with nothing in the ring or in the hands of the secondary. -/
theorem good_startTurn (hring : s.ring = []) (hsec : s.secondary = .polling)
    (hrec : s.received = tens (requests.take i)) (hcon : s.consumed = turns (requests.take i))
    (hcre : s.created = s.consumed.map Prod.snd) : Good requests (startTurn requests s i) := by
  unfold startTurn
  cases hv : requests[i]? with
  | some v =>
    refine ⟨?_, ?_⟩
    · simp only [hring, hsec, hrec, hcon]
      exact .sending hv
    · simp [State.existing, hring, hsec, hcre, Primary.held, Secondary.held]
  | none =>
    have htake : requests.take i = requests :=
      List.take_of_length_le (List.getElem?_eq_none_iff.1 hv)
    rw [htake] at hrec hcon
    refine ⟨?_, ?_⟩
    · simp only [hring, hsec, hrec, hcon]
      exact .exiting
    · simp [State.existing, hring, hsec, hcre, Primary.held, Secondary.held]

theorem good_init (requests : List CInt) : Good requests (init requests) :=
  good_startTurn rfl rfl rfl rfl rfl

theorem take_succ_of_getElem? (h : requests[i]? = some v) :
    requests.take (i + 1) = requests.take i ++ [v] := by
  rw [List.take_add_one, h]
  rfl

theorem Good.stepPrimary (hs : Good requests s) (hcap : 1 ≤ cap) :
    Good requests (stepPrimary cap requests s) := by
  obtain ⟨ring, primary, secondary, received, created, consumed⟩ := s
  obtain ⟨hphase, hcre⟩ := hs
  have hroom : ∀ m : Msg, rteRingEnqueue cap [] m = some [m] := fun m =>
    rteRingEnqueue_of_lt (r := []) hcap m
  have hA : procB ≠ procA := by decide
  simp only [State.existing] at hphase hcre
  cases hphase with
  | sending hv =>
    refine ⟨?_, ?_⟩
    · simpa [SingleRing.stepPrimary, hroom] using Phase.requested hv
    · simpa [SingleRing.stepPrimary, hroom, State.existing, Primary.held] using hcre
  | requested hv =>
    -- the primary dequeues its own request
    refine ⟨?_, ?_⟩
    · simpa [SingleRing.stepPrimary, rteRingDequeue, request, hA] using Phase.requestBack hv
    · simpa [SingleRing.stepPrimary, rteRingDequeue, request, hA, State.existing, Primary.held]
        using hcre
  | requestBack hv =>
    refine ⟨?_, ?_⟩
    · simpa [SingleRing.stepPrimary, hroom] using Phase.requested hv
    · simpa [SingleRing.stepPrimary, hroom, State.existing, Primary.held] using hcre
  | responding hv => exact ⟨.responding hv, hcre⟩
  | @responded i v hv =>
    have htake := take_succ_of_getElem? hv
    simp only [SingleRing.stepPrimary, rteRingDequeue]
    rw [if_neg (by simp [response]), if_pos (show (response (request v)).type = .msgResp from rfl)]
    refine good_startTurn rfl rfl ?_ ?_ ?_
    · rw [htake, tens_snoc]
      rfl
    · rw [htake, turns_snoc]
    · simpa [Primary.held, Secondary.held] using hcre
  | responseBack hv => exact ⟨.responseBack hv, hcre⟩
  | exiting =>
    refine ⟨?_, ?_⟩
    · simpa [SingleRing.stepPrimary, hroom] using @Phase.exited requests
    · simpa [SingleRing.stepPrimary, hroom, State.existing, Primary.held] using hcre
  | exited => exact ⟨.exited, hcre⟩
  | ended => exact ⟨.ended, hcre⟩

theorem Good.stepSecondary (hs : Good requests s) (hcap : 1 ≤ cap) :
    Good requests (stepSecondary cap s) := by
  obtain ⟨ring, primary, secondary, received, created, consumed⟩ := s
  obtain ⟨hphase, hcre⟩ := hs
  have hroom : ∀ m : Msg, rteRingEnqueue cap [] m = some [m] := fun m =>
    rteRingEnqueue_of_lt (r := []) hcap m
  have hB : procA ≠ procB := by decide
  simp only [State.existing] at hphase hcre
  cases hphase with
  | sending hv => exact ⟨.sending hv, hcre⟩
  | requested hv =>
    refine ⟨?_, ?_⟩
    · simpa [SingleRing.stepSecondary, rteRingDequeue, request] using Phase.responding hv
    · rw [hcre]
      simp [SingleRing.stepSecondary, rteRingDequeue, request, State.existing, Primary.held,
        Secondary.held]
  | requestBack hv => exact ⟨.requestBack hv, hcre⟩
  | responding hv =>
    refine ⟨?_, ?_⟩
    · simpa [SingleRing.stepSecondary, hroom] using Phase.responded hv
    · simpa [SingleRing.stepSecondary, hroom, State.existing, Primary.held, Secondary.held]
        using hcre
  | responded hv =>
    -- the secondary dequeues its own response
    refine ⟨?_, ?_⟩
    · simpa [SingleRing.stepSecondary, rteRingDequeue, response, hB] using Phase.responseBack hv
    · simpa [SingleRing.stepSecondary, rteRingDequeue, response, hB, State.existing,
        Primary.held, Secondary.held] using hcre
  | responseBack hv =>
    refine ⟨?_, ?_⟩
    · simpa [SingleRing.stepSecondary, hroom] using Phase.responded hv
    · simpa [SingleRing.stepSecondary, hroom, State.existing, Primary.held, Secondary.held]
        using hcre
  | exiting => exact ⟨.exiting, hcre⟩
  | exited =>
    refine ⟨?_, ?_⟩
    · simpa [SingleRing.stepSecondary, rteRingDequeue, exitMsg] using
        @Phase.ended requests
    · simpa [SingleRing.stepSecondary, rteRingDequeue, exitMsg, State.existing, Primary.held,
        Secondary.held] using hcre
  | ended => exact ⟨.ended, hcre⟩

/-- **Every call keeps to the situations listed.** -/
theorem Good.of_step (hs : Good requests s) (hcap : 1 ≤ cap) (h : Step cap requests s p t) :
    Good requests t := by
  obtain rfl : step cap requests s p = t := h
  cases p with
  | primary => exact hs.stepPrimary hcap
  | secondary => exact hs.stepSecondary hcap

theorem run_good (hcap : 1 ≤ cap) (h : Run (Step cap requests) (init requests) ps s) :
    Good requests s :=
  h.invariant (good_init requests) fun _ _ _ ha hst => ha.of_step hcap hst

/-! ### What the situations have in common -/

theorem Good.existing_le (hs : Good requests s) : s.existing.length ≤ 1 := by
  obtain ⟨ring, primary, secondary, received, created, consumed⟩ := s
  obtain ⟨hphase, -⟩ := hs
  simp only [State.existing] at hphase ⊢
  cases hphase <;> simp [Primary.held, Secondary.held]

theorem Good.ring_of_held (hs : Good requests s)
    (h : s.primary.held ≠ [] ∨ s.secondary.held ≠ []) : s.ring = [] := by
  have hle := hs.existing_le
  simp only [State.existing, List.length_append] at hle
  rcases h with h | h
  · have hpos := List.length_pos_of_ne_nil h
    exact List.length_eq_zero_iff.1 (by omega)
  · have hpos := List.length_pos_of_ne_nil h
    exact List.length_eq_zero_iff.1 (by omega)

theorem mem_turns {vs : List CInt} {x : Proc × Msg} (h : x ∈ turns vs) :
    x.2.dstId = x.1.id ∧ x.2.type ≠ .msgExit := by
  obtain ⟨v, -, hx⟩ := List.mem_flatMap.1 h
  rcases List.mem_cons.1 hx with rfl | hx
  · exact ⟨rfl, by simp [request]⟩
  · obtain rfl := List.mem_singleton.1 hx
    exact ⟨rfl, by simp [response]⟩

/-- A message is consumed by the process it is addressed to, and the exit message when all the
responses have been received. -/
theorem Good.consumed (hs : Good requests s) {x : Proc × Msg} (hx : x ∈ s.consumed) :
    x.2.dstId = x.1.id ∧ (x.2.type = .msgExit → s.received = tens requests) := by
  obtain ⟨ring, primary, secondary, received, created, consumed⟩ := s
  obtain ⟨hphase, -⟩ := hs
  simp only at hphase hx ⊢
  have hturn : ∀ {vs : List CInt} {P : Prop}, x ∈ turns vs →
      x.2.dstId = x.1.id ∧ (x.2.type = .msgExit → P) := fun h =>
    ⟨(mem_turns h).1, fun he => absurd he (mem_turns h).2⟩
  have hreq : ∀ {vs : List CInt} {v : CInt} {P : Prop},
      x ∈ turns vs ++ [(.secondary, request v)] →
      x.2.dstId = x.1.id ∧ (x.2.type = .msgExit → P) := by
    intro vs v P h
    rcases List.mem_append.1 h with h | h
    · exact hturn h
    · obtain rfl := List.mem_singleton.1 h
      exact ⟨rfl, fun he => by simp [request] at he⟩
  cases hphase with
  | sending => exact hturn hx
  | requested => exact hturn hx
  | requestBack => exact hturn hx
  | responding => exact hreq hx
  | responded => exact hreq hx
  | responseBack => exact hreq hx
  | exiting => exact hturn hx
  | exited => exact hturn hx
  | ended =>
    rcases List.mem_append.1 hx with hx | hx
    · exact hturn hx
    · obtain rfl := List.mem_singleton.1 hx
      exact ⟨rfl, fun _ => rfl⟩

theorem Good.received (hs : Good requests s) : ∃ n, s.received = tens (requests.take n) := by
  obtain ⟨ring, primary, secondary, received, created, consumed⟩ := s
  obtain ⟨hphase, -⟩ := hs
  simp only at hphase ⊢
  have hall : tens requests = tens (requests.take requests.length) := by rw [List.take_length]
  cases hphase with
  | exiting => exact ⟨_, hall⟩
  | exited => exact ⟨_, hall⟩
  | ended => exact ⟨_, hall⟩
  | _ => exact ⟨_, rfl⟩

/-! ### The protocol -/

/-- The tenfold of the value fits an `int`. -/
def TenfoldFits (v : CInt) : Prop := -2 ^ 31 ≤ 10 * v.toInt ∧ 10 * v.toInt < 2 ^ 31

theorem toInt_tenfold (h : TenfoldFits v) : (v * 10).toInt = 10 * v.toInt := by
  obtain ⟨h₁, h₂⟩ := h
  rw [BitVec.toInt_mul, show (10 : CInt).toInt = 10 by decide, Int.mul_comm]
  exact Int.bmod_eq_of_le (by omega) (by omega)

/-- **The protocol**, for any requests whose tenfold fits, on a ring that holds at least one message,
under any schedule: the `i`-th value that the primary receives is ten times the `i`-th request; there is
at most one message at any time, so there is room to put it back; every message allocated has been
consumed, by the process it is addressed to, or is still there; and the exit message is consumed when
there have been as many responses as requests. -/
theorem request_response (hcap : 1 ≤ cap) (hfit : ∀ v ∈ requests, TenfoldFits v)
    (h : Run (Step cap requests) (init requests) ps s) :
    (s.received.length ≤ requests.length ∧
      ∀ (i : ℕ) (w : CInt), s.received[i]? = some w →
        ∃ v : CInt, requests[i]? = some v ∧ w.toInt = 10 * v.toInt) ∧
    s.existing.length ≤ 1 ∧
    (s.primary.held ≠ [] ∨ s.secondary.held ≠ [] → s.ring.length < cap) ∧
    s.created = s.consumed.map Prod.snd ++ s.existing ∧
    (∀ x ∈ s.consumed, x.2.dstId = x.1.id) ∧
    ∀ x ∈ s.consumed, x.2.type = .msgExit → s.received.length = requests.length := by
  have hs := run_good hcap h
  obtain ⟨n, hn⟩ := hs.received
  refine ⟨⟨?_, ?_⟩, hs.existing_le, ?_, hs.created, fun x hx => (hs.consumed hx).1, ?_⟩
  · rw [hn, tens, List.length_map]
    exact List.length_take_le' ..
  · intro i w hw
    rw [hn, tens, List.getElem?_map] at hw
    obtain ⟨v, hv, rfl⟩ := Option.map_eq_some_iff.1 hw
    have hmem : v ∈ requests := List.mem_of_mem_take (List.mem_of_getElem? hv)
    refine ⟨v, ?_, toInt_tenfold (hfit v hmem)⟩
    rw [List.getElem?_take] at hv
    split_ifs at hv
    exact hv
  · intro hheld
    rw [hs.ring_of_held hheld]
    exact hcap
  · intro x hx he
    rw [(hs.consumed hx).2 he, tens, List.length_map]

/-- The state after the first turn of the programs, in which each process dequeues its own message once
and puts it back. -/
def afterFirstTurn : State :=
  [.primary, .primary, .primary, .secondary, .secondary, .secondary, .secondary, .primary].foldl
    (step mainCapacity mainRequests) (init mainRequests)

theorem tenfoldFits_mainRequests : ∀ v ∈ mainRequests, TenfoldFits v := by
  intro v hv
  obtain ⟨i, hi, rfl⟩ := List.mem_map.1 hv
  rw [List.mem_range] at hi
  have hnat : (BitVec.ofNat 32 i).toNat = i := by
    rw [BitVec.toNat_ofNat, Nat.mod_eq_of_lt (by omega)]
  have hint : (BitVec.ofNat 32 i).toInt = i := by
    rw [BitVec.toInt_eq_toNat_of_lt (by omega), hnat]
  unfold TenfoldFits
  rw [hint]
  omega

theorem request_response_firstTurn :
    afterFirstTurn.received = [0] ∧ afterFirstTurn.existing.length ≤ 1 ∧
      (afterFirstTurn.primary.held ≠ [] ∨ afterFirstTurn.secondary.held ≠ [] →
        afterFirstTurn.ring.length < mainCapacity) ∧
      afterFirstTurn.created = afterFirstTurn.consumed.map Prod.snd ++ afterFirstTurn.existing := by
  have hcap : 1 ≤ mainCapacity := by
    unfold mainCapacity rteRingCapacity
    omega
  have hrec : afterFirstTurn.received = [0] := by decide
  have h := request_response hcap tenfoldFits_mainRequests (Run.foldl _ _
    [.primary, .primary, .primary, .secondary, .secondary, .secondary, .secondary, .primary])
  exact ⟨hrec, h.2.1, h.2.2.1, h.2.2.2.1⟩

end DpdkBeginners.SingleRing
