import DpdkBeginners.Rte.Bytes
import DpdkBeginners.Rte.Ring
import DpdkBeginners.Lib.Run

/-!
# Two processes on one ring, `inter_process_comm/single_ring_full_duplex`

`primary.c` sends requests and waits for the response to each; `secondary.c` answers them.  Both use
one ring for both directions, so either may dequeue a message that is addressed to the other, and puts
it back.

* The state is the ring, where each process is in its program with the message it holds, and what has
  happened to the messages so far.
* A step is one call of `rte_ring_enqueue` or `rte_ring_dequeue` by one of the processes, with what the
  process does until its next call.  Any sequence of them is a run.
* The requests are a parameter; `mainRequests` are the ones of `primary.c`.

`rte_malloc` is taken to succeed, as the programs do.
-/

namespace DpdkBeginners.SingleRing

open DpdkBeginners.Rte DpdkBeginners.Lib

/-! ### Messages -/

abbrev CInt := BitVec 32

/-- `PROC_A`. -/
def procA : CInt := 1

/-- `PROC_B`. -/
def procB : CInt := 2

/-- `enum msg_type`. -/
inductive MsgType
  | msgReq
  | msgResp
  | msgExit
  deriving DecidableEq

/-- `struct msg`. -/
structure Msg where
  srcId : CInt
  dstId : CInt
  type : MsgType
  value : CInt
  deriving DecidableEq

/-- The request that the primary makes for a value. -/
def request (value : CInt) : Msg := ⟨procA, procB, .msgReq, value⟩

/-- The response that the secondary makes to a request. -/
def response (m : Msg) : Msg := ⟨procB, procA, .msgResp, m.value * 10⟩

/-- The message with which the primary ends. -/
def exitMsg : Msg := ⟨procA, procB, .msgExit, 0⟩

/-! ### Processes -/

/-- Where the primary is: which call it makes next, in which turn of its loop. -/
inductive Primary
  | sending (i : ℕ) (m : Msg)
  | waiting (i : ℕ)
  | puttingBack (i : ℕ) (r : Msg)
  | exiting (m : Msg)
  | done
  deriving DecidableEq

/-- Where the secondary is. -/
inductive Secondary
  | polling
  | puttingBack (m : Msg)
  | responding (resp : Msg)
  | done
  deriving DecidableEq

/-- The message that the primary holds. -/
def Primary.held : Primary → List Msg
  | .sending _ m => [m]
  | .puttingBack _ r => [r]
  | .exiting m => [m]
  | _ => []

/-- The message that the secondary holds. -/
def Secondary.held : Secondary → List Msg
  | .puttingBack m => [m]
  | .responding resp => [resp]
  | _ => []

/-- The two processes. -/
inductive Proc
  | primary
  | secondary
  deriving DecidableEq

/-- The identifier of a process in `dst_id`. -/
def Proc.id : Proc → CInt
  | .primary => procA
  | .secondary => procB

/-- The state of both processes, and its history. -/
structure State where
  ring : List Msg
  primary : Primary
  secondary : Secondary
  /-- the values the primary has received -/
  received : List CInt
  /-- the messages that have been allocated -/
  created : List Msg
  /-- the messages that have been freed, and by which process -/
  consumed : List (Proc × Msg)
  deriving DecidableEq

/-- The messages there are: the ones in the ring and the ones in the hands of a process. -/
def State.existing (s : State) : List Msg := s.ring ++ s.primary.held ++ s.secondary.held

/-! ### Steps -/

variable (cap : ℕ) (requests : List CInt) (s : State)

/-- The head of the loop of `primary.c`: the next request is allocated, or the exit message. -/
def startTurn (i : ℕ) : State :=
  match requests[i]? with
  | some value =>
    { s with primary := .sending i (request value), created := s.created ++ [request value] }
  | none => { s with primary := .exiting exitMsg, created := s.created ++ [exitMsg] }

/-- The state when both processes start, before the first request is sent. -/
def init : State := startTurn requests ⟨[], .done, .polling, [], [], []⟩ 0

/-- The next call of `primary.c`. -/
def stepPrimary : State :=
  match s.primary with
  | .sending i m =>
    match rteRingEnqueue cap s.ring m with
    | some ring => { s with ring := ring, primary := .waiting i }
    | none => s
  | .waiting i =>
    match rteRingDequeue s.ring with
    | none => s
    | some (r, ring) =>
      if r.dstId ≠ procA then { s with ring := ring, primary := .puttingBack i r }
      else if r.type = .msgResp then
        startTurn requests { s with
          ring := ring
          received := s.received ++ [r.value]
          consumed := s.consumed ++ [(.primary, r)] } (i + 1)
      else { s with ring := ring }
  | .puttingBack i r =>
    -- the return value is not looked at
    match rteRingEnqueue cap s.ring r with
    | some ring => { s with ring := ring, primary := .waiting i }
    | none => { s with primary := .waiting i }
  | .exiting m =>
    match rteRingEnqueue cap s.ring m with
    | some ring => { s with ring := ring, primary := .done }
    | none => { s with primary := .done }
  | .done => s

/-- The next call of `secondary.c`. -/
def stepSecondary : State :=
  match s.secondary with
  | .polling =>
    match rteRingDequeue s.ring with
    | none => s
    | some (m, ring) =>
      if m.dstId ≠ procB then { s with ring := ring, secondary := .puttingBack m }
      else if m.type = .msgExit then
        { s with ring := ring, secondary := .done, consumed := s.consumed ++ [(.secondary, m)] }
      else if m.type = .msgReq then
        { s with
          ring := ring
          secondary := .responding (response m)
          created := s.created ++ [response m]
          consumed := s.consumed ++ [(.secondary, m)] }
      else { s with ring := ring }
  | .puttingBack m =>
    -- the return value is not looked at
    match rteRingEnqueue cap s.ring m with
    | some ring => { s with ring := ring, secondary := .polling }
    | none => { s with secondary := .polling }
  | .responding resp =>
    match rteRingEnqueue cap s.ring resp with
    | some ring => { s with ring := ring, secondary := .polling }
    | none => s
  | .done => s

/-- The state after the next call of a process. -/
def step : Proc → State
  | .primary => stepPrimary cap requests s
  | .secondary => stepSecondary cap s

/-- One step. -/
def Step (p : Proc) (t : State) : Prop := step cap requests s p = t

/-- The requests of `primary.c`. -/
def mainRequests : List CInt := (List.range 10).map (BitVec.ofNat 32)

/-- How many messages the ring of `primary.c` holds. -/
def mainCapacity : ℕ := rteRingCapacity 1024

end DpdkBeginners.SingleRing
