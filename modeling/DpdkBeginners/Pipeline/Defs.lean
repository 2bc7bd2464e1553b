import DpdkBeginners.Rte.Ring
import DpdkBeginners.Lib.Run

/-!
# The three threads of `thread_parsing/threaded_project`

`rx_loop` receives mbufs and enqueues them on the first ring, `parser_loop` moves them to the second
one, and `tx_loop` transmits them.  When `rx_loop` has received enough it sets `force_quit`, which all
three test at the head of their loops.

* A step is one access of a thread to what it shares with the others (a ring, the flag, its counter, the
  NIC, the memory pool); any sequence of steps of the three is a run (`Step`).
* The environment decides how many mbufs `rte_eth_rx_burst` returns and how many of the mbufs offered to
  it `rte_eth_tx_burst` accepts.
* `received` and `departed` are the history of the run: the mbufs that the NIC has handed over, and the
  ones that have left the program, each in order.

`parse_packet` only prints, and is left out.
-/

namespace DpdkBeginners.Pipeline

open DpdkBeginners.Rte DpdkBeginners.Lib

variable {α : Type*}

/-! ### Data -/

/-- `BURST_SIZE`. -/
def burstSize : ℕ := 32

/-- How many mbufs the ring created with `RX_RING_SIZE` holds. -/
def rxRingCapacity : ℕ := rteRingCapacity 1024

/-- How many mbufs the ring created with `TX_RING_SIZE` holds. -/
def txRingCapacity : ℕ := rteRingCapacity 1024

/-- Where `rx_loop` is, and the mbufs of its burst that it has not enqueued yet. -/
inductive RxLoop (α : Type*)
  | start
  | test
  | burst
  | counting (pkts : List α)
  | enqueueing (pkts : List α)
  | limit
  | stopping
  | returned

/-- Where `parser_loop` is, and the mbufs in its hands. -/
inductive ParserLoop (α : Type*)
  | start
  | test
  | dequeueing
  | counting (pkts : List α)
  | enqueueing (pkts : List α)
  | freeing (pkts : List α)
  | returned

/-- Where `tx_loop` is, and the mbufs in its hands. -/
inductive TxLoop (α : Type*)
  | start
  | test
  | dequeueing
  | counting (pkts : List α)
  | sending (pkts : List α)
  | freeing (pkts : List α)
  | returned

def RxLoop.held : RxLoop α → List α
  | .counting pkts => pkts
  | .enqueueing pkts => pkts
  | _ => []

def ParserLoop.held : ParserLoop α → List α
  | .counting pkts => pkts
  | .enqueueing pkts => pkts
  | .freeing pkts => pkts
  | _ => []

def TxLoop.held : TxLoop α → List α
  | .counting pkts => pkts
  | .sending pkts => pkts
  | .freeing pkts => pkts
  | _ => []

/-- How an mbuf leaves the program. -/
inductive Fate
  | transmitted
  | freed
  deriving DecidableEq

/-- The global variables, the three threads and the history. -/
structure State (α : Type*) where
  forceQuit : Bool
  rxCount : ℕ
  parserCount : ℕ
  txCount : ℕ
  ringRxToParse : List α
  ringParseToTx : List α
  rx : RxLoop α
  parser : ParserLoop α
  tx : TxLoop α
  received : List α
  departed : List (α × Fate)

/-- The state when the three threads are launched. -/
def init : State α := ⟨false, 0, 0, 0, [], [], .start, .start, .start, [], []⟩

/-! ### Steps -/

variable (s : State α)

/-- The next step of `rx_loop`; `pkts` is what `rte_eth_rx_burst` returns, if the step is its call. -/
def stepRx (pkts : List α) : State α :=
  match s.rx with
  | .start => { s with rxCount := 0, rx := .test }
  | .test => if s.forceQuit then { s with rx := .returned } else { s with rx := .burst }
  | .burst =>
    if 0 < pkts.length then { s with received := s.received ++ pkts, rx := .counting pkts }
    else { s with rx := .limit }
  | .counting pkts => { s with rxCount := s.rxCount + pkts.length, rx := .enqueueing pkts }
  | .enqueueing [] => { s with rx := .limit }
  | .enqueueing (x :: pkts) =>
    -- the return value is not looked at
    match rteRingEnqueue rxRingCapacity s.ringRxToParse x with
    | some ring => { s with ringRxToParse := ring, rx := .enqueueing pkts }
    | none => { s with rx := .enqueueing pkts }
  | .limit => if 10 ≤ s.rxCount then { s with rx := .stopping } else { s with rx := .test }
  | .stopping => { s with forceQuit := true, rx := .returned }
  | .returned => s

/-- The next step of `parser_loop`. -/
def stepParser : State α :=
  match s.parser with
  | .start => { s with parserCount := 0, parser := .test }
  | .test =>
    if s.forceQuit then { s with parser := .returned } else { s with parser := .dequeueing }
  | .dequeueing =>
    let (pkts, ring) := rteRingDequeueBurst s.ringRxToParse burstSize
    if 0 < pkts.length then { s with ringRxToParse := ring, parser := .counting pkts }
    else { s with ringRxToParse := ring, parser := .test }
  | .counting pkts =>
    { s with parserCount := s.parserCount + pkts.length, parser := .enqueueing pkts }
  | .enqueueing pkts =>
    let (ring, m) := rteRingEnqueueBurst txRingCapacity s.ringParseToTx pkts
    if m < pkts.length then { s with ringParseToTx := ring, parser := .freeing (pkts.drop m) }
    else { s with ringParseToTx := ring, parser := .test }
  | .freeing [] => { s with parser := .test }
  | .freeing (x :: pkts) =>
    { s with departed := s.departed ++ [(x, .freed)], parser := .freeing pkts }
  | .returned => s

/-- The next step of `tx_loop`; `sent` is what `rte_eth_tx_burst` returns, if the step is its call. -/
def stepTx (sent : ℕ) : State α :=
  match s.tx with
  | .start => { s with txCount := 0, tx := .test }
  | .test => if s.forceQuit then { s with tx := .returned } else { s with tx := .dequeueing }
  | .dequeueing =>
    let (pkts, ring) := rteRingDequeueBurst s.ringParseToTx burstSize
    if 0 < pkts.length then { s with ringParseToTx := ring, tx := .counting pkts }
    else { s with ringParseToTx := ring, tx := .test }
  | .counting pkts => { s with txCount := s.txCount + pkts.length, tx := .sending pkts }
  | .sending pkts =>
    { s with
      departed := s.departed ++ (pkts.take sent).map (·, .transmitted)
      tx := .freeing (pkts.drop sent) }
  | .freeing [] => { s with tx := .test }
  | .freeing (x :: pkts) => { s with departed := s.departed ++ [(x, .freed)], tx := .freeing pkts }
  | .returned => s

/-! ### Runs -/

/-- Which thread takes the next step, and what the environment answers. -/
inductive Event (α : Type*)
  | rx (pkts : List α)
  | parser
  | tx (sent : ℕ)

/-- `rte_eth_rx_burst` returns at most as many mbufs as it is asked for. -/
def Enabled : Event α → Prop
  | .rx pkts => pkts.length ≤ burstSize
  | _ => True

/-- The state after a step. -/
def step : Event α → State α
  | .rx pkts => stepRx s pkts
  | .parser => stepParser s
  | .tx sent => stepTx s sent

/-- One step of one of the threads. -/
def Step (ev : Event α) (t : State α) : Prop := Enabled ev ∧ step s ev = t

instance (ev : Event α) : Decidable (Enabled ev) :=
  match ev with
  | .rx _ => Nat.decLe _ _
  | .parser => isTrue trivial
  | .tx _ => isTrue trivial

theorem run_of_enabled (evs : List (Event α)) (h : ∀ ev ∈ evs, Enabled ev) :
    Run Step s evs (evs.foldl step s) := by
  have hrun := (Run.foldl step s evs).restrict h
  exact hrun.mono fun _ _ _ hstep => ⟨hstep.2, hstep.1⟩

end DpdkBeginners.Pipeline
