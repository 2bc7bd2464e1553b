import DpdkBeginners.Lib.Run
import DpdkBeginners.Rte.Ring

/-!
# A primary that waits for its secondary, `inter_process_comm/Multi_Process_Messaging`

The primary sends `ready_check` messages until a `ready_reply` has come, and then enqueues the numbers from 0
on, without a look at what `rte_ring_enqueue` returns.  The secondary answers each check, from its callback, and
dequeues for ever.

* A step is one call of an EAL or ring function, or one test of `secondary_ready`, by `main` of one of the two, or it
  is a callback: `check_cb` in the secondary or `ready_cb` in the primary, for a message that is in flight.
* A message may get lost, when `rte_mp_sendmsg` finds nobody to send it to, and a check that arrives before the
  secondary has registered its callback is dropped.

The delays are left out; the messages that are printed are left out but for the numbers.
-/

namespace DpdkBeginners.Messaging

open DpdkBeginners.Rte DpdkBeginners.Lib

/-- What the primary does next. -/
inductive Primary
  | create
  | register
  /-- the test of the first loop -/
  | check
  | send
  /-- the test of the second loop -/
  | wait
  | enqueue (i : ℕ)
  | print (i : ℕ)
  | returned
  deriving DecidableEq

/-- What the secondary does next. -/
inductive Secondary
  | register
  | lookup
  | dequeue
  deriving DecidableEq

/-- The two processes, the messages in flight, the ring, and what has become of the numbers. -/
structure State where
  primary : Primary
  secondary : Secondary
  secondaryReady : Bool
  /-- how many checks and replies are in flight -/
  checks : ℕ
  replies : ℕ
  ringCreated : Bool
  ring : List ℕ
  /-- `check_cb` has sent a reply -/
  answered : Bool
  /-- the numbers that `rte_ring_enqueue` has taken, and those it has refused -/
  enqueued : List ℕ
  lost : List ℕ
  /-- the numbers that the primary and the secondary have printed -/
  sent : List ℕ
  received : List ℕ

/-- The state when both have called `rte_eal_init`. -/
def init : State := ⟨.create, .register, false, 0, 0, false, [], false, [], [], [], []⟩

/-- Who takes a step; a step that sends a message, with whether it is delivered. -/
inductive Event
  | primary (delivered : Bool)
  | secondary
  | checkCb (delivered : Bool)
  | readyCb
  deriving DecidableEq

section Steps

variable (n cap : ℕ)

/-- The test of the last loop, for the number `i`. -/
def Primary.next (i : ℕ) : Primary := if i < n then .enqueue i else .returned

/-- The next step of `main` of `primary.c`; it sends `n` numbers. -/
def stepPrimary (s : State) (delivered : Bool) : State :=
  match s.primary with
  | .create => { s with ringCreated := true, primary := .register }
  | .register => { s with primary := .check }
  | .check => { s with primary := if s.secondaryReady then .wait else .send }
  | .send => { s with checks := if delivered then s.checks + 1 else s.checks, primary := .check }
  | .wait => { s with primary := if s.secondaryReady then .next n 0 else .wait }
  | .enqueue i =>
    match rteRingEnqueue cap s.ring i with
    | some ring => { s with ring := ring, enqueued := s.enqueued ++ [i], primary := .print i }
    -- the return value is not looked at
    | none => { s with lost := s.lost ++ [i], primary := .print i }
  | .print i => { s with sent := s.sent ++ [i], primary := .next n (i + 1) }
  | .returned => s

/-- The next step of `main` of `secondary.c`. -/
def stepSecondary (s : State) : State :=
  match s.secondary with
  | .register => { s with secondary := .lookup }
  | .lookup => { s with secondary := if s.ringCreated then .dequeue else .lookup }
  | .dequeue =>
    match rteRingDequeue s.ring with
    | some (i, ring) => { s with ring := ring, received := s.received ++ [i] }
    | none => s

/-- `check_cb`, if it is registered. -/
def checkCb (s : State) (delivered : Bool) : State :=
  if s.secondary = .register then { s with checks := s.checks - 1 }
  else
    { s with
      checks := s.checks - 1
      replies := if delivered then s.replies + 1 else s.replies
      answered := true }

/-- `ready_cb`. -/
def readyCb (s : State) : State := { s with replies := s.replies - 1, secondaryReady := true }

/-- The next step. -/
def step (s : State) : Event → State
  | .primary delivered => stepPrimary n cap s delivered
  | .secondary => stepSecondary s
  | .checkCb delivered => checkCb s delivered
  | .readyCb => readyCb s

/-- A callback runs for a message in flight; the one of the primary, while the process runs. -/
def Enabled (s : State) : Event → Prop
  | .checkCb _ => 0 < s.checks
  | .readyCb => 0 < s.replies ∧ s.primary ≠ .returned
  | _ => True

/-- One step. -/
def Step (s : State) (ev : Event) (t : State) : Prop := Enabled s ev ∧ step n cap s ev = t

end Steps

/-- How many numbers the primary sends, and how many the ring of `primary.c` holds. -/
def mainCount : ℕ := 5
def mainCapacity : ℕ := rteRingCapacity 32

end DpdkBeginners.Messaging
