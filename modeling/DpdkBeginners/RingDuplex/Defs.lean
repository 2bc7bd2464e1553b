import DpdkBeginners.Lib.Heap
import DpdkBeginners.Lib.Run
import DpdkBeginners.Rte.Ring

/-!
# Two processes on two rings, `inter_process_comm/ring_full_duplex`

`primary.c` sends each request through `a_to_b`, waits for the reply in `b_to_a`, and ends with a message
that holds `-1`; `secondary.c` answers until it receives that one.  What the rings hold are pointers into
memory that both processes share: the one allocates a message, the other frees it.

* A step is one access to shared memory, one call of a ring function, of `rte_malloc` or of `rte_free`, by
  one of the processes.  The store of the value of a new message goes with its `rte_malloc`.
* An event names the process, and the address that `rte_malloc` returns if the step allocates: any cell that
  is not allocated.
* A step fails (`none`) when it loads or frees a cell that is not allocated, or uses a ring that has not been
  created.
* The requests are a parameter; `mainRequests` are the ones of `primary.c`.

`rte_malloc` is taken to succeed, as the programs do.
-/

namespace DpdkBeginners.RingDuplex

open DpdkBeginners.Rte DpdkBeginners.Lib

abbrev CInt := BitVec 32

/-- What the primary does next: `i` is the counter of its loop, `msg`, `val` and `stop` are the pointers it
holds. -/
inductive Primary
  | create
  | create2
  | turn (i : ℕ)
  | sending (i msg : ℕ)
  | waiting (i : ℕ)
  | reading (i val : ℕ)
  | freeing (i val : ℕ)
  | stopping (stop : ℕ)
  | done
  deriving DecidableEq

/-- What the secondary does next: `val` and `reply` are the pointers it holds. -/
inductive Secondary
  | lookup
  | lookup2
  | polling
  | testing (val : ℕ)
  | exiting (val : ℕ)
  | printing (val : ℕ)
  | computing (val : ℕ)
  | freeing (val : ℕ) (result : CInt)
  | answering (result : CInt)
  | sending (reply : ℕ)
  | done
  deriving DecidableEq

/-- The two processes. -/
inductive Proc
  | primary
  | secondary
  deriving DecidableEq

/-- The shared memory, the rings that have been created, the two processes, and what they have printed. -/
structure State where
  heap : Heap CInt
  ring : Option (List ℕ)
  ring2 : Option (List ℕ)
  primary : Primary
  secondary : Secondary
  /-- the values that the primary has received -/
  received : List CInt
  /-- the values that the secondary has received -/
  served : List CInt

/-- The state before anything has been done. -/
def init : State := ⟨Heap.empty, none, none, .create, .lookup, [], []⟩

section Steps

variable (cap : ℕ) (requests : List CInt)

/-- The next step of `primary.c`; `a` is what `rte_malloc` returns. -/
def stepPrimary (s : State) (a : ℕ) : Option State :=
  match s.primary with
  | .create => some { s with ring := some [], primary := .create2 }
  | .create2 => some { s with ring2 := some [], primary := .turn 0 }
  | .turn i =>
    match requests[i]? with
    | some value => some { s with heap := s.heap.alloc a value, primary := .sending i a }
    | none => some { s with heap := s.heap.alloc a (-1), primary := .stopping a }
  | .sending i msg =>
    s.ring.map fun ring =>
      match rteRingEnqueue cap ring msg with
      | some ring => { s with ring := some ring, primary := .waiting i }
      | none => s
  | .waiting i =>
    s.ring2.map fun ring2 =>
      match rteRingDequeue ring2 with
      | some (val, ring2) => { s with ring2 := some ring2, primary := .reading i val }
      | none => s
  | .reading i val =>
    (s.heap val).map fun v : CInt => { s with received := s.received ++ [v], primary := .freeing i val }
  | .freeing i val => (s.heap.free val).map fun heap => { s with heap := heap, primary := .turn (i + 1) }
  | .stopping stop =>
    s.ring.map fun ring =>
      match rteRingEnqueue cap ring stop with
      | some ring => { s with ring := some ring, primary := .done }
      -- the return value is not looked at
      | none => { s with primary := .done }
  | .done => some s

/-- The next step of `secondary.c`; `a` is what `rte_malloc` returns. -/
def stepSecondary (s : State) (a : ℕ) : Option State :=
  match s.secondary with
  | .lookup => some (if s.ring.isSome then { s with secondary := .lookup2 } else s)
  | .lookup2 => some (if s.ring2.isSome then { s with secondary := .polling } else s)
  | .polling =>
    s.ring.map fun ring =>
      match rteRingDequeue ring with
      | some (val, ring) => { s with ring := some ring, secondary := .testing val }
      | none => s
  | .testing val =>
    (s.heap val).map fun v : CInt =>
      { s with secondary := if v = -1 then .exiting val else .printing val }
  | .exiting val => (s.heap.free val).map fun heap => { s with heap := heap, secondary := .done }
  | .printing val =>
    (s.heap val).map fun v : CInt => { s with served := s.served ++ [v], secondary := .computing val }
  | .computing val => (s.heap val).map fun v : CInt => { s with secondary := .freeing val (v * 10) }
  | .freeing val result =>
    (s.heap.free val).map fun heap => { s with heap := heap, secondary := .answering result }
  | .answering result => some { s with heap := s.heap.alloc a result, secondary := .sending a }
  | .sending reply =>
    s.ring2.map fun ring2 =>
      match rteRingEnqueue cap ring2 reply with
      | some ring2 => { s with ring2 := some ring2, secondary := .polling }
      | none => s
  | .done => some s

/-- The next step of a process calls `rte_malloc`. -/
def Allocates (s : State) : Proc → Prop
  | .primary => ∃ i, s.primary = .turn i
  | .secondary => ∃ result, s.secondary = .answering result

/-- `rte_malloc` returns memory that is not in use. -/
def Enabled (s : State) (ev : Proc × ℕ) : Prop := Allocates s ev.1 → s.heap ev.2 = none

/-- The state after the next step of a process. -/
def step (s : State) : Proc × ℕ → Option State
  | (.primary, a) => stepPrimary cap requests s a
  | (.secondary, a) => stepSecondary cap s a

/-- One step. -/
def Step (s : State) (ev : Proc × ℕ) (t : State) : Prop :=
  Enabled s ev ∧ step cap requests s ev = some t

end Steps

/-- The requests of `primary.c`. -/
def mainRequests : List CInt := (List.range 10).map (BitVec.ofNat 32)

/-- How many pointers a ring of `RING_SIZE` holds. -/
def mainCapacity : ℕ := rteRingCapacity 1024

end DpdkBeginners.RingDuplex
