import DpdkBeginners.Pipeline.Conservation

/-!
# What is left when the threads have returned

`rx_loop` sets `force_quit` as soon as it has received enough, whether or not the mbufs have passed the
other two threads.  A thread that tests the flag then returns, and what is upstream of it stays where it
is.  So the pipeline is drained in the end exactly when no test came too early: `parser_loop` found the
flag set with the first ring empty, and `tx_loop` found it set with nothing upstream of it (`Timely`).
-/

namespace DpdkBeginners.Pipeline

open DpdkBeginners.Rte DpdkBeginners.Lib

variable {α : Type*} {s t : State α} {ev : Event α} {evs : List (Event α)}

/-- All three threads have returned. -/
def State.allReturned (s : State α) : Prop :=
  s.rx = .returned ∧ s.parser = .returned ∧ s.tx = .returned

/-- Every mbuf received has left, the rings are empty, and the three totals agree. -/
structure Drained (s : State α) : Prop where
  departed : s.departed.map Prod.fst = s.received
  ringRxToParse : s.ringRxToParse = []
  ringParseToTx : s.ringParseToTx = []
  parserCount : s.parserCount = s.rxCount
  txCount : s.txCount = s.parserCount

/-- `force_quit` is set and nothing is upstream of `parser_loop`. -/
def State.parserSwept (s : State α) : Prop := s.forceQuit = true ∧ s.ringRxToParse = []

/-- `force_quit` is set and nothing is upstream of `tx_loop`. -/
def State.txSwept (s : State α) : Prop :=
  s.parserSwept ∧ s.parser.held = [] ∧ s.ringParseToTx = []

/-- A thread that finds `force_quit` set leaves nothing behind. -/
def Timely (s : State α) : Event α → Prop
  | .rx _ => True
  | .parser => s.parser = .test → s.forceQuit = true → s.parserSwept
  | .tx _ => s.tx = .test → s.forceQuit = true → s.txSwept

/-! ### What a step leaves as it is -/

theorem Inv.stepRx_eq (hs : Inv s) (hq : s.forceQuit = true) (pkts : List α) :
    stepRx s pkts = s := by
  unfold stepRx
  rw [hs.quit.1 hq]

theorem stepParser_frame (s : State α) :
    (stepParser s).forceQuit = s.forceQuit ∧ (stepParser s).tx = s.tx ∧
      (stepParser s).received = s.received ∧ (stepParser s).ringRxToParse <:+ s.ringRxToParse := by
  have hring : s.ringRxToParse <:+ s.ringRxToParse := List.suffix_refl _
  have hdrop : (rteRingDequeueBurst s.ringRxToParse burstSize).2 <:+ s.ringRxToParse :=
    List.drop_suffix _ _
  unfold stepParser
  cases s.parser with
  | test => dsimp only; split <;> exact ⟨rfl, rfl, rfl, hring⟩
  | dequeueing => dsimp only; split <;> exact ⟨rfl, rfl, rfl, hdrop⟩
  | enqueueing pkts => dsimp only; split <;> exact ⟨rfl, rfl, rfl, hring⟩
  | freeing pkts => cases pkts <;> exact ⟨rfl, rfl, rfl, hring⟩
  | _ => exact ⟨rfl, rfl, rfl, hring⟩

theorem stepTx_frame (s : State α) (sent : ℕ) :
    (stepTx s sent).forceQuit = s.forceQuit ∧ (stepTx s sent).parser = s.parser ∧
      (stepTx s sent).ringRxToParse = s.ringRxToParse ∧ (stepTx s sent).received = s.received ∧
      (stepTx s sent).ringParseToTx <:+ s.ringParseToTx := by
  have hring : s.ringParseToTx <:+ s.ringParseToTx := List.suffix_refl _
  have hdrop : (rteRingDequeueBurst s.ringParseToTx burstSize).2 <:+ s.ringParseToTx :=
    List.drop_suffix _ _
  unfold stepTx
  cases s.tx with
  | test => dsimp only; split <;> exact ⟨rfl, rfl, rfl, rfl, hring⟩
  | dequeueing => dsimp only; split <;> exact ⟨rfl, rfl, rfl, rfl, hdrop⟩
  | freeing pkts => cases pkts <;> exact ⟨rfl, rfl, rfl, rfl, hring⟩
  | _ => exact ⟨rfl, rfl, rfl, rfl, hring⟩

/-- `parser_loop` lets no mbuf leave, since no enqueue of its bursts falls short. -/
theorem Inv.stepParser_departed (hs : Inv s) : (stepParser s).departed = s.departed := by
  unfold stepParser
  cases hpar : s.parser with
  | test => dsimp only; split <;> rfl
  | dequeueing => dsimp only; split <;> rfl
  | enqueueing pkts => dsimp only; split <;> rfl
  | freeing pkts => exact absurd hpar (hs.keeps pkts)
  | _ => rfl

/-! ### A swept pipeline stays swept -/

theorem parserSwept_stepParser (h : s.parserSwept) : (stepParser s).parserSwept := by
  obtain ⟨hq, hring⟩ := h
  obtain ⟨hq', -, -, hsuffix⟩ := stepParser_frame s
  refine ⟨hq'.trans hq, ?_⟩
  rw [hring] at hsuffix
  exact List.suffix_nil.1 hsuffix

theorem Inv.parserSwept_step (hs : Inv s) (hstep : Step s ev t) (h : s.parserSwept) :
    t.parserSwept := by
  obtain ⟨-, rfl⟩ := hstep
  cases ev with
  | rx pkts => rwa [step, hs.stepRx_eq h.1]
  | parser => exact parserSwept_stepParser h
  | tx sent =>
    obtain ⟨hq, -, hring, -⟩ := stepTx_frame s sent
    exact ⟨hq.trans h.1, hring.trans h.2⟩

theorem txSwept_stepParser (h : s.txSwept) : (stepParser s).txSwept := by
  obtain ⟨hup, hheld, hring⟩ := h
  refine ⟨parserSwept_stepParser hup, ?_⟩
  unfold stepParser
  cases hpar : s.parser with
  | start => exact ⟨rfl, hring⟩
  | test => simp [hup.1, ParserLoop.held, hring]
  | dequeueing => simp [rteRingDequeueBurst, hup.2, ParserLoop.held, hring]
  | counting pkts =>
    rw [hpar] at hheld
    exact ⟨hheld, hring⟩
  | enqueueing pkts =>
    obtain rfl : pkts = [] := by rwa [hpar] at hheld
    simp [rteRingEnqueueBurst, ParserLoop.held, hring]
  | freeing pkts =>
    obtain rfl : pkts = [] := by rwa [hpar] at hheld
    exact ⟨rfl, hring⟩
  | returned => exact ⟨by rw [hpar]; rfl, hring⟩

theorem txSwept_stepTx (h : s.txSwept) (sent : ℕ) : (stepTx s sent).txSwept := by
  obtain ⟨⟨hq, hup⟩, hheld, hring⟩ := h
  obtain ⟨hq', hpar, hup', -, hsuffix⟩ := stepTx_frame s sent
  refine ⟨⟨hq'.trans hq, hup'.trans hup⟩, hpar ▸ hheld, ?_⟩
  rw [hring] at hsuffix
  exact List.suffix_nil.1 hsuffix

theorem Inv.txSwept_step (hs : Inv s) (hstep : Step s ev t) (h : s.txSwept) : t.txSwept := by
  obtain ⟨-, rfl⟩ := hstep
  cases ev with
  | rx pkts => rwa [step, hs.stepRx_eq h.1.1]
  | parser => exact txSwept_stepParser h
  | tx sent => exact txSwept_stepTx h sent

/-! ### Where a thread returns -/

theorem stepRx_frame (s : State α) (pkts : List α) :
    (stepRx s pkts).parser = s.parser ∧ (stepRx s pkts).tx = s.tx := by
  unfold stepRx
  cases s.rx with
  | test => dsimp only; split <;> exact ⟨rfl, rfl⟩
  | burst => dsimp only; split <;> exact ⟨rfl, rfl⟩
  | enqueueing pkts =>
    cases pkts with
    | nil => exact ⟨rfl, rfl⟩
    | cons x pkts => dsimp only; split <;> exact ⟨rfl, rfl⟩
  | limit => dsimp only; split <;> exact ⟨rfl, rfl⟩
  | _ => exact ⟨rfl, rfl⟩

theorem returned_of_stepParser (h : (stepParser s).parser = .returned) :
    s.parser = .returned ∨ s.parser = .test ∧ s.forceQuit = true := by
  unfold stepParser at h
  cases hpar : s.parser with
  | test =>
    by_cases hq : s.forceQuit = true
    · exact .inr ⟨rfl, hq⟩
    · simp [hpar, hq] at h
  | returned => exact .inl rfl
  | start => simp [hpar] at h
  | counting pkts => simp [hpar] at h
  | dequeueing =>
    simp only [hpar] at h
    split at h <;> simp at h
  | enqueueing pkts =>
    simp only [hpar] at h
    split at h <;> simp at h
  | freeing pkts => cases pkts <;> simp [hpar] at h

theorem returned_of_stepTx {sent : ℕ} (h : (stepTx s sent).tx = .returned) :
    s.tx = .returned ∨ s.tx = .test ∧ s.forceQuit = true := by
  unfold stepTx at h
  cases htx : s.tx with
  | test =>
    by_cases hq : s.forceQuit = true
    · exact .inr ⟨rfl, hq⟩
    · simp [htx, hq] at h
  | returned => exact .inl rfl
  | start => simp [htx] at h
  | counting pkts => simp [htx] at h
  | dequeueing =>
    simp only [htx] at h
    split at h <;> simp at h
  | sending pkts => simp [htx] at h
  | freeing pkts => cases pkts <;> simp [htx] at h

/-- The threads that have returned have left nothing behind. -/
def State.swept (s : State α) : Prop :=
  (s.parser = .returned → s.parserSwept) ∧ (s.tx = .returned → s.txSwept)

theorem Inv.swept_step (hs : Inv s) (hstep : Step s ev t) (htime : Timely s ev) (h : s.swept) :
    t.swept := by
  obtain ⟨hparser, htx⟩ := h
  constructor
  · intro hret
    by_cases hold : s.parser = .returned
    · exact hs.parserSwept_step hstep (hparser hold)
    · -- `parser_loop` has just returned
      obtain ⟨-, rfl⟩ := hstep
      cases ev with
      | rx pkts => exact absurd ((stepRx_frame s pkts).1.symm.trans hret) hold
      | parser =>
        rcases returned_of_stepParser hret with hret | ⟨htest, hq⟩
        · exact absurd hret hold
        · exact parserSwept_stepParser (htime htest hq)
      | tx sent => exact absurd ((stepTx_frame s sent).2.1.symm.trans hret) hold
  · intro hret
    by_cases hold : s.tx = .returned
    · exact hs.txSwept_step hstep (htx hold)
    · obtain ⟨-, rfl⟩ := hstep
      cases ev with
      | rx pkts => exact absurd ((stepRx_frame s pkts).2.symm.trans hret) hold
      | parser => exact absurd ((stepParser_frame s).2.1.symm.trans hret) hold
      | tx sent =>
        rcases returned_of_stepTx hret with hret | ⟨htest, hq⟩
        · exact absurd hret hold
        · exact txSwept_stepTx (htime htest hq) sent

theorem Inv.drained (hs : Inv s) (hswept : s.txSwept) (hret : s.allReturned) : Drained s := by
  obtain ⟨⟨-, hring⟩, -, hring'⟩ := hswept
  obtain ⟨hrx, hpar, htx⟩ := hret
  have hline := hs.line
  have h₁ := hs.rxCount
  have h₂ := hs.parserCount
  have h₃ := hs.txCount
  rw [hring, hrx] at hline
  rw [hrx] at h₁
  rw [hpar] at h₂
  rw [htx] at h₃
  simp only [State.pastParser, State.pastTx, hpar, htx, hring', RxLoop.held, ParserLoop.held,
    TxLoop.held, List.append_nil] at hline h₂ h₃
  simp only [RxLoop.uncounted, ParserLoop.uncounted, TxLoop.uncounted, List.length_nil,
    Nat.add_zero] at h₁ h₂ h₃
  refine ⟨hline, hring, hring', ?_, ?_⟩
  · rw [h₁, h₂, hline]
  · rw [h₂, h₃]

/-! ### A stranded mbuf stays where it is -/

/-- A thread has returned and has left something behind. -/
def State.stranded (s : State α) : Prop :=
  s.forceQuit = true ∧
    (s.parser = .returned ∧ s.ringRxToParse ≠ [] ∨ s.tx = .returned ∧ s.pastTx ≠ s.received)

theorem Inv.stranded_of_late (hs : Inv s) (hstep : Step s ev t) (hlate : ¬ Timely s ev) :
    t.stranded := by
  obtain ⟨-, rfl⟩ := hstep
  cases ev with
  | rx pkts => exact absurd trivial hlate
  | parser =>
    simp only [Timely, Classical.not_imp] at hlate
    obtain ⟨htest, hq, hnot⟩ := hlate
    have heq : stepParser s = { s with parser := .returned } := by simp [stepParser, htest, hq]
    rw [step, heq]
    exact ⟨hq, .inl ⟨rfl, fun hring => hnot ⟨hq, hring⟩⟩⟩
  | tx sent =>
    simp only [Timely, Classical.not_imp] at hlate
    obtain ⟨htest, hq, hnot⟩ := hlate
    have heq : stepTx s sent = { s with tx := .returned } := by simp [stepTx, htest, hq]
    rw [step, heq]
    refine ⟨hq, .inr ⟨rfl, fun hall => hnot ?_⟩⟩
    -- when all has been dequeued by `tx_loop`, the places upstream are empty
    have hheld : s.tx.held = [] := by rw [htest]; rfl
    have hline := congrArg List.length hs.line
    have hpast : (s.pastTx).length = s.received.length := by
      rw [← hall, State.pastTx, hheld]
      rfl
    simp only [State.pastParser, List.length_append] at hline
    refine ⟨⟨hq, List.length_eq_zero_iff.1 ?_⟩, List.length_eq_zero_iff.1 ?_,
      List.length_eq_zero_iff.1 ?_⟩
    all_goals omega

theorem Inv.stranded_step (hs : Inv s) (hstep : Step s ev t) (h : s.stranded) : t.stranded := by
  obtain ⟨-, rfl⟩ := hstep
  obtain ⟨hq, hleft⟩ := h
  cases ev with
  | rx pkts =>
    rw [step, hs.stepRx_eq hq]
    exact ⟨hq, hleft⟩
  | parser =>
    obtain ⟨hq', htx, hreceived, -⟩ := stepParser_frame s
    refine ⟨hq'.trans hq, ?_⟩
    rcases hleft with ⟨hret, hring⟩ | ⟨hret, hpast⟩
    · have heq : stepParser s = s := by simp only [stepParser, hret]
      exact .inl (by rw [step, heq]; exact ⟨hret, hring⟩)
    · refine .inr ⟨htx.trans hret, ?_⟩
      rw [step, State.pastTx, hs.stepParser_departed, htx, hreceived]
      exact hpast
  | tx sent =>
    obtain ⟨hq', hpar, hring', hreceived, -⟩ := stepTx_frame s sent
    refine ⟨hq'.trans hq, ?_⟩
    rcases hleft with ⟨hret, hring⟩ | ⟨hret, hpast⟩
    · exact .inl ⟨hpar.trans hret, by rwa [step, hring']⟩
    · have heq : stepTx s sent = s := by simp only [stepTx, hret]
      exact .inr (by rw [step, heq]; exact ⟨hret, hpast⟩)

theorem Drained.not_stranded (h : Drained s) (hret : s.allReturned) : ¬ s.stranded := by
  rintro ⟨-, ⟨-, hring⟩ | ⟨-, hpast⟩⟩
  · exact hring h.ringRxToParse
  · refine hpast ?_
    rw [State.pastTx, hret.2.2, h.departed]
    exact List.append_nil _

/-- **Shutdown.**  When the three threads have returned, the pipeline is drained if and only if each
step of the run was timely. -/
theorem drained_iff_timely (h : Run Step init evs s) (hret : s.allReturned) :
    Drained s ↔ Run (fun a ev b => Step a ev b ∧ Timely a ev) init evs s := by
  constructor
  · intro hdrained
    exact h.outside_trap inv_init (fun _ _ _ => Inv.of_step)
      (fun _ _ _ ha hstep => ha.stranded_of_late hstep)
      (fun _ _ _ ha hstep => ha.stranded_step hstep) (hdrained.not_stranded hret)
  · intro htimely
    have hstart : (init : State α).swept := ⟨by simp [init], by simp [init]⟩
    have hboth := htimely.invariant (I := fun a => Inv a ∧ a.swept) ⟨inv_init, hstart⟩
      fun a f b ha hstep => ⟨ha.1.of_step hstep.1, ha.1.swept_step hstep.1 hstep.2 ha.2⟩
    exact hboth.1.drained (hboth.2.2 hret.2.2) hret

/-! ### Two runs -/

/-- `rx_loop` receives ten mbufs, enqueues them and returns. -/
def tenReceived : List (Event ℕ) :=
  [.rx [], .rx [], .rx (List.range 10), .rx []] ++ List.replicate 10 (.rx []) ++ [.rx [], .rx [], .rx []]

/-- The other threads are launched when `rx_loop` has returned. -/
def lateLaunch : List (Event ℕ) := tenReceived ++ [.parser, .parser, .tx 0, .tx 0]

/-- The other threads dequeue the mbufs before `rx_loop` sets the flag. -/
def inTime : List (Event ℕ) :=
  tenReceived.dropLast ++ List.replicate 5 .parser ++ List.replicate 4 (.tx 0) ++
    [.tx 10, .tx 0, .rx [], .parser, .tx 0]

/-- All ten mbufs are stranded in the first ring. -/
theorem lateLaunch_not_drained :
    ¬ ∀ (evs : List (Event ℕ)) (s : State ℕ), Run Step init evs s → s.allReturned → Drained s := by
  intro h
  have hrun := run_of_enabled init lateLaunch (by decide)
  have hring := (h _ _ hrun ⟨rfl, rfl, rfl⟩).ringRxToParse
  exact absurd hring (by decide)

theorem drained_iff_timely_inTime :
    Run (fun a ev b => Step a ev b ∧ Timely a ev) init inTime (inTime.foldl step init) := by
  have hrun := run_of_enabled init inTime (by decide)
  exact (drained_iff_timely hrun ⟨rfl, rfl, rfl⟩).1
    ⟨by decide, by decide, by decide, by decide, by decide⟩

end DpdkBeginners.Pipeline
