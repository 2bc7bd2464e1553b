import DpdkBeginners.Lib.Run
import DpdkBeginners.Rte.Qsbr
import Mathlib.Logic.Function.Basic

/-!
# The sample of `rcu/sample`

The main thread is the writer: it replaces the data so many times, and then waits for the reader and frees the
last version.  A step is one call, or one access to memory, of one of the two threads.

* Each allocation is a new version, numbered in order, also where it gets memory that has been freed before.
  Allocations succeed.
* `heap` has the values of the versions that are allocated.  A thread that reads or frees a version that is not
  allocated fails (`none`).
* `freed` and `printed` are the history of the run.

`rte_rcu_qsbr_lock` and `rte_rcu_qsbr_unlock` only count, in debug builds; they are left out, like the sleeps
and the messages of the writer.
-/

namespace DpdkBeginners.Rcu

open DpdkBeginners.Rte DpdkBeginners.Lib
open Function (update)

/-- What the reader does next; `d` is the version that it has loaded. -/
inductive ReaderPc
  | register
  | online
  | test
  | load
  | deref (d : ℕ)
  | quiescent
  | offline
  | unregister
  | returned
  deriving DecidableEq

/-- What the main thread does next; `i` is the counter of the loop of `writer`. -/
inductive MainPc
  | test (i : ℕ)
  | exchange (i new : ℕ)
  | synchronize (i old : ℕ)
  | synchronizing (i old : ℕ)
  | free (i old : ℕ)
  | waitLcore
  | cleanup
  | ended
  deriving DecidableEq

/-- The shared memory, the two threads and the history. -/
structure State where
  gdata : ℕ
  stop : Bool
  qsbr : Qsbr ℕ
  heap : ℕ → Option ℕ
  allocated : ℕ
  main : MainPc
  reader : ReaderPc
  freed : List ℕ
  printed : List ℕ

/-- The state when the reader has been launched. -/
def init : State := ⟨0, false, Qsbr.init, update (fun _ => none) 0 (some 0), 1, .test 0, .register, [], []⟩

/-- `rte_free` -/
def rteFree (s : State) (p : ℕ) : Option State :=
  match s.heap p with
  | none => none
  | some _ => some { s with heap := update s.heap p none, freed := s.freed ++ [p] }

/-! ### The threads -/

section Threads

variable (updates id : ℕ)

/-- The next step of `reader`, which runs on the lcore `id`. -/
def readerStep (s : State) : Option State :=
  match s.reader with
  | .register => some { s with qsbr := s.qsbr.threadRegister id, reader := .online }
  | .online => some { s with qsbr := s.qsbr.threadOnline id, reader := .test }
  | .test => some { s with reader := if s.stop then .offline else .load }
  | .load => some { s with reader := .deref s.gdata }
  | .deref d =>
    match s.heap d with
    | none => none
    | some value => some { s with printed := s.printed ++ [value], reader := .quiescent }
  | .quiescent => some { s with qsbr := s.qsbr.quiescent id, reader := .test }
  | .offline => some { s with qsbr := s.qsbr.threadOffline id, reader := .unregister }
  | .unregister => some { s with qsbr := s.qsbr.threadUnregister id, reader := .returned }
  | .returned => some s

/-- The next step of `main` and `writer`, with `updates` for the number 5. -/
def mainStep (s : State) : Option State :=
  match s.main with
  | .test i =>
    if i < updates then
      some { s with
        heap := update s.heap s.allocated (some (i + 1))
        allocated := s.allocated + 1
        main := .exchange i s.allocated }
    else some { s with stop := true, main := .waitLcore }
  | .exchange i new => some { s with gdata := new, main := .synchronize i s.gdata }
  | .synchronize i old => some { s with qsbr := s.qsbr.synchronize, main := .synchronizing i old }
  | .synchronizing i old => some { s with main := .free i old }
  | .free i old => (rteFree s old).map fun s => { s with main := .test (i + 1) }
  | .waitLcore => some { s with main := .cleanup }
  | .cleanup => (rteFree s s.gdata).map fun s => { s with main := .ended }
  | .ended => some s

/-! ### Runs -/

/-- Which of the threads takes a step. -/
inductive Event
  | main
  | reader
  deriving DecidableEq

/-- A thread has a next step; `rte_rcu_qsbr_synchronize` and `rte_eal_mp_wait_lcore` wait. -/
def Enabled (s : State) : Event → Prop
  | .main =>
    match s.main with
    | .synchronizing _ _ => s.qsbr.waiting = ∅
    | .waitLcore => s.reader = .returned
    | .ended => False
    | _ => True
  | .reader => s.reader ≠ .returned

/-- The state after a step of a thread. -/
def step (s : State) : Event → Option State
  | .main => mainStep updates s
  | .reader => readerStep id s

/-- One step of one of the threads. -/
def Step (s : State) (ev : Event) (t : State) : Prop := Enabled s ev ∧ step updates id s ev = some t

end Threads

end DpdkBeginners.Rcu
