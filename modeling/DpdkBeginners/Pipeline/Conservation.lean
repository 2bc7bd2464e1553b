import DpdkBeginners.Pipeline.Defs

/-!
# Where the mbufs are

The places of an mbuf stand in a line: the burst of `rx_loop`, the first ring, the hands of
`parser_loop`, the second ring, the hands of `tx_loop`, and the outside.  A step moves mbufs over one
border of this line, first in first out, so the places in a row always spell the mbufs received, in
order (`Inv.line`).  The counters say how far the mbufs have come, and since `rx_loop` stops before it
has received 42 of them no ring is ever full.
-/

namespace DpdkBeginners.Pipeline

open DpdkBeginners.Rte DpdkBeginners.Lib

variable {α : Type*} {s t : State α} {ev : Event α} {evs : List (Event α)}

/-! ### The invariant -/

/-- The mbufs that `rx_loop` has received and not counted yet. -/
def RxLoop.uncounted : RxLoop α → List α
  | .counting pkts => pkts
  | _ => []

def ParserLoop.uncounted : ParserLoop α → List α
  | .counting pkts => pkts
  | _ => []

def TxLoop.uncounted : TxLoop α → List α
  | .counting pkts => pkts
  | _ => []

/-- The mbufs that `tx_loop` has dequeued. -/
def State.pastTx (s : State α) : List α := s.departed.map Prod.fst ++ s.tx.held

/-- The mbufs that `parser_loop` has dequeued. -/
def State.pastParser (s : State α) : List α := s.pastTx ++ s.ringParseToTx ++ s.parser.held

/-- How many mbufs `rx_loop` can have counted where it is. -/
def RxLoop.bound : RxLoop α → ℕ
  | .start => 0
  | .test => 9
  | .burst => 9
  | .counting _ => 9
  | _ => 41

/-- **The invariant.** -/
structure Inv (s : State α) : Prop where
  /-- The places in a row are the mbufs received. -/
  line : s.pastParser ++ s.ringRxToParse ++ s.rx.held = s.received
  rxCount : s.rxCount + s.rx.uncounted.length = s.received.length
  parserCount : s.parserCount + s.parser.uncounted.length = s.pastParser.length
  txCount : s.txCount + s.tx.uncounted.length = s.pastTx.length
  rxBound : s.rxCount ≤ s.rx.bound
  burst : s.rx.uncounted.length ≤ burstSize
  /-- The counters are zero when the threads set them to zero. -/
  parserStart : s.parser = .start → s.parserCount = 0
  txStart : s.tx = .start → s.txCount = 0
  /-- The second ring is never full. -/
  keeps : ∀ pkts, s.parser ≠ .freeing pkts
  /-- `force_quit` is set when `rx_loop` returns. -/
  quit : s.forceQuit = true ↔ s.rx = .returned

theorem inv_init : Inv (init : State α) := by
  refine ⟨rfl, rfl, rfl, rfl, Nat.le_refl 0, ?_, fun _ => rfl, fun _ => rfl, ?_, ?_⟩
  · simp [init, RxLoop.uncounted]
  · simp [init]
  · simp [init]

theorem Inv.received_le (hs : Inv s) : s.received.length ≤ 41 := by
  have h₁ := hs.rxCount
  have h₂ := hs.rxBound
  have h₃ := hs.burst
  cases hrx : s.rx <;> simp only [hrx, RxLoop.uncounted, RxLoop.bound, burstSize, List.length_nil]
    at h₁ h₂ h₃ <;> omega

theorem Inv.places_le (hs : Inv s) :
    s.pastTx.length + s.ringParseToTx.length + s.parser.held.length + s.ringRxToParse.length +
      s.rx.held.length ≤ 41 := by
  have hline := congrArg List.length hs.line
  have hle := hs.received_le
  simp only [State.pastParser, List.length_append] at hline
  omega

theorem Inv.rxRing_room (hs : Inv s) : s.ringRxToParse.length < rxRingCapacity := by
  have hle := hs.places_le
  simp only [rxRingCapacity, rteRingCapacity]
  omega

/-- The second ring has room for the burst that `parser_loop` is about to enqueue. -/
theorem Inv.txRing_room (hs : Inv s) {pkts : List α} (hpar : s.parser = .enqueueing pkts) :
    s.ringParseToTx.length + pkts.length ≤ txRingCapacity := by
  have hle := hs.places_le
  rw [hpar] at hle
  simp only [txRingCapacity, rteRingCapacity, ParserLoop.held] at hle ⊢
  omega

/-! ### Steps of `rx_loop` -/

/-- What `rx_loop` changes while it receives nothing and goes on: mbufs move from its hands to the first
ring. -/
theorem Inv.of_rx (hs : Inv s) {rx : RxLoop α} {rxCount : ℕ} {ring : List α}
    (hline : ring ++ rx.held = s.ringRxToParse ++ s.rx.held)
    (hcount : rxCount + rx.uncounted.length = s.rxCount + s.rx.uncounted.length)
    (hbound : rxCount ≤ rx.bound) (hburst : rx.uncounted.length ≤ burstSize)
    (hbefore : s.rx ≠ .returned) (hafter : rx ≠ .returned) :
    Inv { s with rx := rx, rxCount := rxCount, ringRxToParse := ring } :=
  { hs with
    line := by
      have hs := hs.line
      rw [List.append_assoc] at hs
      rw [← hs, ← hline, ← List.append_assoc]
      rfl
    rxCount := hcount.trans hs.rxCount
    rxBound := hbound
    burst := hburst
    quit := by
      constructor
      · intro hq
        exact absurd (hs.quit.1 hq) hbefore
      · intro hrx
        exact absurd hrx hafter }

theorem inv_stepRx (hs : Inv s) {pkts : List α} (hb : pkts.length ≤ burstSize) :
    Inv (stepRx s pkts) := by
  have hbound := hs.rxBound
  unfold stepRx
  cases hrx : s.rx with
  | start =>
    rw [hrx] at hbound
    have hzero : s.rxCount = 0 := Nat.le_zero.1 hbound
    exact hs.of_rx (by rw [hrx]; rfl) (by rw [hrx, hzero]; rfl) (Nat.zero_le _) (Nat.zero_le _)
      (by simp [hrx]) (by simp)
  | test =>
    rw [hrx] at hbound
    by_cases hq : s.forceQuit = true
    · -- the flag is set by `rx_loop` only, when it returns
      exact absurd (hs.quit.1 hq) (by simp [hrx])
    · simp only [if_neg hq]
      exact hs.of_rx (by rw [hrx]; rfl) (by rw [hrx]; rfl) hbound (Nat.zero_le _) (by simp [hrx]) (by simp)
  | burst =>
    have hline := hs.line
    have hcount := hs.rxCount
    have hquit := hs.quit
    rw [hrx] at hline hcount hbound hquit
    by_cases hpos : 0 < pkts.length
    · simp only [if_pos hpos]
      refine { hs with
        line := ?_
        rxCount := ?_
        rxBound := hbound
        burst := hb
        quit := by simpa using hquit }
      · show s.pastParser ++ s.ringRxToParse ++ pkts = s.received ++ pkts
        rw [← hline]
        simp [RxLoop.held]
      · show s.rxCount + pkts.length = (s.received ++ pkts).length
        rw [List.length_append, ← hcount]
        rfl
    · simp only [if_neg hpos]
      exact hs.of_rx (by rw [hrx]; rfl) (by rw [hrx]; rfl) (Nat.le_trans hbound (show 9 ≤ 41 by omega))
        (Nat.zero_le _) (by simp [hrx]) (by simp)
  | counting xs =>
    have hxs := hs.burst
    rw [hrx] at hbound hxs
    refine hs.of_rx (by rw [hrx]; rfl) (by rw [hrx]; rfl) ?_ (Nat.zero_le _) (by simp [hrx]) (by simp)
    show s.rxCount + xs.length ≤ 41
    simp only [RxLoop.bound, RxLoop.uncounted, burstSize] at hbound hxs
    omega
  | enqueueing xs =>
    rw [hrx] at hbound
    cases xs with
    | nil =>
      exact hs.of_rx (by rw [hrx]; rfl) (by rw [hrx]; rfl) hbound (Nat.zero_le _) (by simp [hrx]) (by simp)
    | cons x xs =>
      simp only [rteRingEnqueue_of_lt hs.rxRing_room]
      refine hs.of_rx ?_ (by rw [hrx]; rfl) hbound (Nat.zero_le _) (by simp [hrx]) (by simp)
      rw [hrx]
      exact List.append_assoc ..
  | limit =>
    rw [hrx] at hbound
    by_cases hlim : 10 ≤ s.rxCount
    · simp only [if_pos hlim]
      exact hs.of_rx (by rw [hrx]; rfl) (by rw [hrx]; rfl) hbound (Nat.zero_le _) (by simp [hrx]) (by simp)
    · simp only [if_neg hlim]
      exact hs.of_rx (by rw [hrx]; rfl) (by rw [hrx]; rfl) (Nat.le_of_lt_succ (Nat.lt_of_not_le hlim))
        (Nat.zero_le _) (by simp [hrx]) (by simp)
  | stopping =>
    have hline := hs.line
    have hcount := hs.rxCount
    rw [hrx] at hline hcount hbound
    exact { hs with
      line := hline
      rxCount := hcount
      rxBound := hbound
      burst := Nat.zero_le _
      quit := by simp }
  | returned => exact hs

/-! ### Steps of `parser_loop` -/

/-- What `parser_loop` changes: mbufs move from the first ring to its hands, and on to the second ring. -/
theorem Inv.of_parser (hs : Inv s) {parser : ParserLoop α} {parserCount : ℕ} {ring ring' : List α}
    (hline : s.pastTx ++ ring' ++ parser.held ++ ring = s.pastParser ++ s.ringRxToParse)
    (hcount : parserCount + parser.uncounted.length = (s.pastTx ++ ring' ++ parser.held).length)
    (hstart : parser ≠ .start) (hkeeps : ∀ pkts, parser ≠ .freeing pkts) :
    Inv { s with
      parser := parser
      parserCount := parserCount
      ringRxToParse := ring
      ringParseToTx := ring' } :=
  { hs with
    line := (congrArg (· ++ s.rx.held) hline).trans hs.line
    parserCount := hcount
    parserStart := fun h => absurd h hstart
    keeps := hkeeps }

theorem inv_stepParser (hs : Inv s) : Inv (stepParser s) := by
  have hcount := hs.parserCount
  have hpast : s.pastParser = s.pastTx ++ s.ringParseToTx ++ s.parser.held := rfl
  unfold stepParser
  cases hpar : s.parser with
  | start =>
    rw [hpar] at hpast
    rw [hpar, hpast, hs.parserStart hpar] at hcount
    exact hs.of_parser (by rw [hpast]; rfl) hcount (by simp) (by simp)
  | test =>
    rw [hpar] at hpast
    rw [hpar, hpast] at hcount
    split_ifs
    · exact hs.of_parser (by rw [hpast]; rfl) hcount (by simp) (by simp)
    · exact hs.of_parser (by rw [hpast]; rfl) hcount (by simp) (by simp)
  | dequeueing =>
    rw [hpar] at hpast
    rw [hpar, hpast] at hcount
    have hsplit := rteRingDequeueBurst_append s.ringRxToParse burstSize
    generalize rteRingDequeueBurst s.ringRxToParse burstSize = b at hsplit ⊢
    obtain ⟨pkts, ring⟩ := b
    by_cases hpos : 0 < pkts.length
    · have hnone : s.pastTx ++ s.ringParseToTx ++ ParserLoop.dequeueing.held =
          s.pastTx ++ s.ringParseToTx := List.append_nil _
      rw [hnone] at hpast hcount
      simp only [if_pos hpos]
      refine hs.of_parser ?_ ?_ (by simp) (by simp)
      · show s.pastTx ++ s.ringParseToTx ++ pkts ++ ring = s.pastParser ++ s.ringRxToParse
        rw [List.append_assoc _ pkts, hsplit, hpast]
      · show s.parserCount + pkts.length = (s.pastTx ++ s.ringParseToTx ++ pkts).length
        rw [List.length_append, ← hcount]
        rfl
    · have hnil : pkts = [] := List.length_eq_zero_iff.1 (Nat.eq_zero_of_not_pos hpos)
      have hring : ring = s.ringRxToParse := by rw [← hsplit, hnil, List.nil_append]
      simp only [if_neg hpos, hring]
      exact hs.of_parser (by rw [hpast]; rfl) hcount (by simp) (by simp)
  | counting xs =>
    rw [hpar] at hpast
    rw [hpar, hpast] at hcount
    exact hs.of_parser (by rw [hpast]; rfl) hcount (by simp) (by simp)
  | enqueueing xs =>
    rw [hpar] at hpast
    rw [hpar, hpast] at hcount
    have hmoved : s.pastTx ++ (s.ringParseToTx ++ xs) ++ [] = s.pastTx ++ s.ringParseToTx ++ xs := by
      rw [List.append_nil, List.append_assoc]
    simp only [rteRingEnqueueBurst_of_le (hs.txRing_room hpar), Nat.lt_irrefl, if_false]
    refine hs.of_parser ?_ ?_ (by simp) (by simp)
    · rw [hpast]
      exact congrArg (· ++ s.ringRxToParse) hmoved
    · exact hcount.trans (congrArg List.length hmoved).symm
  | freeing xs => exact absurd hpar (hs.keeps xs)
  | returned => exact hs

/-! ### Steps of `tx_loop` -/

/-- What `tx_loop` changes: mbufs move from the second ring to its hands, and on to the outside. -/
theorem Inv.of_tx (hs : Inv s) {tx : TxLoop α} {txCount : ℕ} {ring : List α}
    {departed : List (α × Fate)}
    (hline : departed.map Prod.fst ++ tx.held ++ ring = s.pastTx ++ s.ringParseToTx)
    (hcount : txCount + tx.uncounted.length = (departed.map Prod.fst ++ tx.held).length)
    (hstart : tx ≠ .start) :
    Inv { s with tx := tx, txCount := txCount, ringParseToTx := ring, departed := departed } := by
  have hpast : departed.map Prod.fst ++ tx.held ++ ring ++ s.parser.held = s.pastParser :=
    congrArg (· ++ s.parser.held) hline
  exact { hs with
    line := (congrArg (· ++ s.ringRxToParse ++ s.rx.held) hpast).trans hs.line
    parserCount := hs.parserCount.trans (congrArg List.length hpast).symm
    txCount := hcount
    txStart := fun h => absurd h hstart }

theorem inv_stepTx (hs : Inv s) (sent : ℕ) : Inv (stepTx s sent) := by
  have hcount := hs.txCount
  have hpast : s.pastTx = s.departed.map Prod.fst ++ s.tx.held := rfl
  unfold stepTx
  cases htx : s.tx with
  | start =>
    rw [htx] at hpast
    rw [htx, hpast, hs.txStart htx] at hcount
    exact hs.of_tx (by rw [hpast]; rfl) hcount (by simp)
  | test =>
    rw [htx] at hpast
    rw [htx, hpast] at hcount
    split_ifs
    · exact hs.of_tx (by rw [hpast]; rfl) hcount (by simp)
    · exact hs.of_tx (by rw [hpast]; rfl) hcount (by simp)
  | dequeueing =>
    rw [htx] at hpast
    rw [htx, hpast] at hcount
    have hsplit := rteRingDequeueBurst_append s.ringParseToTx burstSize
    generalize rteRingDequeueBurst s.ringParseToTx burstSize = b at hsplit ⊢
    obtain ⟨pkts, ring⟩ := b
    by_cases hpos : 0 < pkts.length
    · have hnone : s.departed.map Prod.fst ++ TxLoop.dequeueing.held = s.departed.map Prod.fst :=
        List.append_nil _
      rw [hnone] at hpast hcount
      simp only [if_pos hpos]
      refine hs.of_tx ?_ ?_ (by simp)
      · show s.departed.map Prod.fst ++ pkts ++ ring = s.pastTx ++ s.ringParseToTx
        rw [List.append_assoc, hsplit, hpast]
      · show s.txCount + pkts.length = (s.departed.map Prod.fst ++ pkts).length
        rw [List.length_append, ← hcount]
        rfl
    · have hnil : pkts = [] := List.length_eq_zero_iff.1 (Nat.eq_zero_of_not_pos hpos)
      have hring : ring = s.ringParseToTx := by rw [← hsplit, hnil, List.nil_append]
      simp only [if_neg hpos, hring]
      exact hs.of_tx (by rw [hpast]; rfl) hcount (by simp)
  | counting xs =>
    rw [htx] at hpast
    rw [htx, hpast] at hcount
    exact hs.of_tx (by rw [hpast]; rfl) hcount (by simp)
  | sending xs =>
    rw [htx] at hpast
    rw [htx, hpast] at hcount
    -- the accepted mbufs and the others are what `tx_loop` held
    have hjoin : (s.departed ++ (xs.take sent).map (·, Fate.transmitted)).map Prod.fst ++
        xs.drop sent = s.departed.map Prod.fst ++ xs := by
      rw [List.map_append, List.map_map, List.append_assoc]
      simp [Function.comp_def]
    refine hs.of_tx ?_ ?_ (by simp)
    · rw [hpast]
      exact congrArg (· ++ s.ringParseToTx) hjoin
    · exact hcount.trans (congrArg List.length hjoin).symm
  | freeing xs =>
    rw [htx] at hpast
    rw [htx, hpast] at hcount
    cases xs with
    | nil => exact hs.of_tx (by rw [hpast]; rfl) hcount (by simp)
    | cons x xs =>
      have hjoin : (s.departed ++ [(x, Fate.freed)]).map Prod.fst ++ xs =
          s.departed.map Prod.fst ++ x :: xs := by
        rw [List.map_append, List.append_assoc]
        rfl
      refine hs.of_tx ?_ ?_ (by simp)
      · rw [hpast]
        exact congrArg (· ++ s.ringParseToTx) hjoin
      · exact hcount.trans (congrArg List.length hjoin).symm
  | returned => exact hs

/-! ### Runs -/

theorem Inv.of_step (hs : Inv s) (h : Step s ev t) : Inv t := by
  obtain ⟨hen, rfl⟩ := h
  cases ev with
  | rx pkts => exact inv_stepRx hs hen
  | parser => exact inv_stepParser hs
  | tx sent => exact inv_stepTx hs sent

theorem run_inv (h : Run Step init evs s) : Inv s := h.invariant inv_init fun _ _ _ => Inv.of_step

theorem Inv.rxCount_le (hs : Inv s) : s.rxCount ≤ 41 := by
  have h₁ := hs.rxCount
  have h₂ := hs.received_le
  omega

theorem Inv.parserCount_le (hs : Inv s) : s.parserCount ≤ s.rxCount := by
  have hline := congrArg List.length hs.line
  have hrx := hs.rxCount
  have hparser := hs.parserCount
  have hle : s.rx.uncounted.length ≤ s.rx.held.length := by
    cases s.rx <;> simp [RxLoop.uncounted, RxLoop.held]
  simp only [List.length_append] at hline
  omega

theorem Inv.txCount_le (hs : Inv s) : s.txCount ≤ s.parserCount := by
  have hparser := hs.parserCount
  have htx := hs.txCount
  have hle : s.parser.uncounted.length ≤ s.parser.held.length := by
    cases s.parser <;> simp [ParserLoop.uncounted, ParserLoop.held]
  simp only [State.pastParser, List.length_append] at hparser
  omega

/-- **Conservation.**  In every state that a run of the three threads reaches, `rx_count` is at most 41;
the enqueues that the threads are about to make take every mbuf; the places in a row are the mbufs
received, so each of these is in exactly one place; the counters follow each other; and the mbufs leave
in the order of their arrival. -/
theorem conservation (h : Run Step init evs s) :
    s.rxCount ≤ 41 ∧
    (∀ x pkts, s.rx = .enqueueing (x :: pkts) →
      rteRingEnqueue rxRingCapacity s.ringRxToParse x = some (s.ringRxToParse ++ [x])) ∧
    (∀ pkts, s.parser = .enqueueing pkts →
      rteRingEnqueueBurst txRingCapacity s.ringParseToTx pkts =
        (s.ringParseToTx ++ pkts, pkts.length)) ∧
    s.departed.map Prod.fst ++ s.tx.held ++ s.ringParseToTx ++ s.parser.held ++ s.ringRxToParse ++
      s.rx.held = s.received ∧
    s.txCount ≤ s.parserCount ∧ s.parserCount ≤ s.rxCount ∧
    s.departed.map Prod.fst <+: s.received := by
  have hs := run_inv h
  refine ⟨hs.rxCount_le, ?_, ?_, hs.line, hs.txCount_le, hs.parserCount_le, ?_⟩
  · intro x _ _
    exact rteRingEnqueue_of_lt hs.rxRing_room x
  · intro pkts hpar
    exact rteRingEnqueueBurst_of_le (hs.txRing_room hpar)
  · rw [← hs.line]
    simp [State.pastParser, State.pastTx]

/-- A run in which two mbufs are received: the first one is transmitted and the second one is not
accepted. -/
def twoMbufs : List (Event ℕ) :=
  [.rx [], .rx [], .rx [1, 2], .rx [], .rx [], .rx [], .parser, .parser, .parser, .parser, .parser,
    .tx 0, .tx 0, .tx 0, .tx 0, .tx 1, .tx 0]

theorem conservation_twoMbufs :
    (twoMbufs.foldl step init).departed = [(1, .transmitted), (2, .freed)] ∧
      (twoMbufs.foldl step init).received = [1, 2] ∧
      (twoMbufs.foldl step init).txCount ≤ (twoMbufs.foldl step init).parserCount := by
  have h := conservation (run_of_enabled init twoMbufs (by decide))
  exact ⟨by decide, by decide, h.2.2.2.2.1⟩

end DpdkBeginners.Pipeline
