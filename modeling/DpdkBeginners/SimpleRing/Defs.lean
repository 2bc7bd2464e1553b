import DpdkBeginners.Lib.Channel
import DpdkBeginners.Lib.Run
import DpdkBeginners.Rte.Ring

/-!
# A producer and a consumer, `rings/sample/simple_ring.c`

The producer allocates the next number, enqueues the pointer and prints the number, or frees it when the ring is
full; the consumer dequeues a pointer, prints the number and frees it.  Both run until the signal handler has
cleared `keep_running`, which it may do at any time.

* A step is one test of `keep_running`, one call of `malloc`, `free` or of a ring function, or one load of a
  number, by one of the threads, or it is the signal.  The store of a new number goes with its `malloc`.
* The event of a step of the producer has the address that `malloc` returns if the step allocates: any cell
  that is not allocated.
* A step fails (`none`) when it loads or frees a cell that is not allocated.

The delays and the messages without a number are left out; `malloc` is taken to succeed, as the program does.
-/

namespace DpdkBeginners.SimpleRing

open DpdkBeginners.Rte DpdkBeginners.Lib

abbrev Number := BitVec 64

/-- What `producer` does next; `data` is its pointer. -/
inductive Producer
  | test
  | malloc
  | enqueue (data : ℕ)
  | print (data : ℕ)
  | free (data : ℕ)
  | returned
  deriving DecidableEq

/-- What `consumer` does next; `data` is its pointer. -/
inductive Consumer
  | test
  | dequeue
  | print (data : ℕ)
  | free (data : ℕ)
  | returned
  deriving DecidableEq

/-- The memory, the two threads, and what has become of the numbers. -/
structure State where
  heap : Heap Number
  ring : List ℕ
  keepRunning : Bool
  counter : Number
  producer : Producer
  consumer : Consumer
  /-- the numbers that have been enqueued -/
  sent : List Number
  /-- the numbers that the producer has freed because the ring was full -/
  dropped : List Number
  /-- the numbers that the consumer has printed -/
  consumed : List Number

/-- The state when both threads have been launched. -/
def init : State := ⟨Heap.empty, [], true, 0, .test, .test, [], [], []⟩

/-- Who takes a step; the producer, with what `malloc` returns. -/
inductive Event
  | producer (a : ℕ)
  | consumer
  | signal
  deriving DecidableEq

section Steps

variable (cap : ℕ)

/-- The next step of `producer`. -/
def stepProducer (s : State) (a : ℕ) : Option State :=
  match s.producer with
  | .test => some { s with producer := if s.keepRunning then .malloc else .returned }
  | .malloc =>
    some { s with heap := s.heap.alloc a s.counter, counter := s.counter + 1, producer := .enqueue a }
  | .enqueue data =>
    match rteRingEnqueue cap s.ring data with
    | some ring =>
      -- the number that was allocated last
      some { s with ring := ring, producer := .print data, sent := s.sent ++ [s.counter - 1] }
    | none => some { s with producer := .free data }
  | .print data => (s.heap data).map fun _ : Number => { s with producer := .test }
  | .free data =>
    (s.heap.free data).map fun heap =>
      { s with heap := heap, producer := .test, dropped := s.dropped ++ [s.counter - 1] }
  | .returned => some s

/-- The next step of `consumer`. -/
def stepConsumer (s : State) : Option State :=
  match s.consumer with
  | .test => some { s with consumer := if s.keepRunning then .dequeue else .returned }
  | .dequeue =>
    match rteRingDequeue s.ring with
    | some (data, ring) => some { s with ring := ring, consumer := .print data }
    | none => some { s with consumer := .test }
  | .print data =>
    (s.heap data).map fun v : Number => { s with consumer := .free data, consumed := s.consumed ++ [v] }
  | .free data => (s.heap.free data).map fun heap => { s with heap := heap, consumer := .test }
  | .returned => some s

/-- The next step; the signal is `handle_signal`. -/
def step (s : State) : Event → Option State
  | .producer a => stepProducer cap s a
  | .consumer => stepConsumer s
  | .signal => some { s with keepRunning := false }

/-- `malloc` returns memory that is not in use. -/
def Enabled (s : State) : Event → Prop
  | .producer a => s.producer = .malloc → s.heap a = none
  | _ => True

/-- One step. -/
def Step (s : State) (ev : Event) (t : State) : Prop := Enabled s ev ∧ step cap s ev = some t

end Steps

/-- How many pointers the ring of `main` holds. -/
def mainCapacity : ℕ := rteRingCapacity 1024

end DpdkBeginners.SimpleRing
