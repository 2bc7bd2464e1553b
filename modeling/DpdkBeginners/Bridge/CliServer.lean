import DpdkBeginners.Bridge.Defs
import Mathlib.Logic.Function.Basic

/-!
# The bridge and the CLI of `cli/socket_cli`

The sessions of the bridge connect to one CLI, whose `main` accepts a connection and stays in `cmdline_interact` until
the client has closed it or has sent `exit`.  The other connections wait.

* A socket connects when the kernel has queued the connection, before the CLI accepts it.  One that is destroyed while
  it is opening does not connect.
* `cmdline_interact` reads what a socket writes, prints, and returns when it reads `exit` or the end of the input.  What
  it makes of a line is left open: it may print anything at any time, and any line may end it.
* Bridge and CLI are on one host, so an open connection breaks only if one of them closes it.  What has been printed
  arrives before the end of the connection.

The limit of the backlog is left out, and so are a `cmdline_new` that fails and the end of either process.
-/

namespace DpdkBeginners.Bridge

open DpdkBeginners.Lib Function

/-- A connection: a session and one of its sockets. -/
abbrev Conn := ℕ × ℕ

/-- The sessions of the bridge, and the CLI. -/
structure System where
  sessions : ℕ → Option State
  /-- connected and not accepted -/
  backlog : List Conn
  clientFd : Option Conn
  /-- the connections that the CLI has closed -/
  closed : List Conn
  /-- how many messages of a connection have been read -/
  reads : Conn → ℕ
  /-- what has been printed and has not arrived -/
  arriving : Conn → List String

/-! ### The system -/

namespace System

/-- The CLI listens, and no frontend has connected yet. -/
def start : System := ⟨fun _ => none, [], none, [], fun _ => 0, fun _ => []⟩

variable (S : System)

/-- How many messages a connection has been sent. -/
def writes (c : Conn) : ℕ :=
  match S.sessions c.1 with
  | none => 0
  | some s => s.written.countP fun w => w.1 = c.2

def unread (c : Conn) : ℕ := S.writes c - S.reads c

/-- The bridge has closed a connection. -/
def Gone (c : Conn) : Prop :=
  ∃ s, S.sessions c.1 = some s ∧ (s.sockets[c.2]? = some .destroyed ∨ s.sockets[c.2]? = some .closed)

/-- What can happen: a frontend connects, an event of a session, and the calls of the CLI. -/
inductive Event
  | frontend (k : ℕ)
  | session (k : ℕ) (ev : Bridge.Event)
  | accept
  /-- A message is read, and may end `cmdline_interact`. -/
  | read (quits : Bool)
  | print (text : String)
  | eof

/-- What an event of a session needs of the CLI. -/
def Admits (k : ℕ) (s : State) : Bridge.Event → Prop
  | .data i text => (S.arriving (k, i)).head? = some text
  | .close i => s.sockets[i]? = some .opened → (k, i) ∈ S.closed ∧ S.arriving (k, i) = []
  | _ => True

/-- When an event can happen. -/
def Enabled : Event → Prop
  | .frontend k => S.sessions k = none
  | .session k ev => ∃ s, S.sessions k = some s ∧ Bridge.Enabled s ev ∧ S.Admits k s ev
  | .accept => S.clientFd = none ∧ S.backlog ≠ []
  | .read _ => ∃ c, S.clientFd = some c ∧ 0 < S.unread c
  | .print _ => ∃ c, S.clientFd = some c
  | .eof => ∃ c, S.clientFd = some c ∧ S.Gone c

/-- What an event of the session `k` changes outside of it. -/
def outside (k : ℕ) : Bridge.Event → System
  | .connect i => { S with backlog := S.backlog ++ [(k, i)] }
  | .data i _ => { S with arriving := update S.arriving (k, i) (S.arriving (k, i)).tail }
  | _ => S

/-- An event of the session `k`, of which `s` is the state. -/
def sessionStep (k : ℕ) (s : State) (ev : Bridge.Event) : System :=
  { S.outside k ev with sessions := update S.sessions k (some (Bridge.step s ev)) }

/-- `cmdline_interact` returns, and `main` closes the connection. -/
def closeClient (c : Conn) : System := { S with clientFd := none, closed := S.closed ++ [c] }

/-- The system after an event. -/
def step : Event → System
  | .frontend k => { S with sessions := update S.sessions k (some init) }
  | .session k ev =>
    match S.sessions k with
    | none => S
    | some s => S.sessionStep k s ev
  | .accept =>
    match S.backlog with
    | [] => S
    | c :: backlog => { S with clientFd := some c, backlog := backlog }
  | .read quits =>
    match S.clientFd with
    | none => S
    | some c =>
      let S := { S with reads := update S.reads c (S.reads c + 1) }
      if quits then S.closeClient c else S
  | .print text =>
    match S.clientFd with
    | none => S
    | some c => { S with arriving := update S.arriving c (S.arriving c ++ [text]) }
  | .eof =>
    match S.clientFd with
    | none => S
    | some c => S.closeClient c

/-- One event. -/
def Step (ev : Event) (T : System) : Prop := S.Enabled ev ∧ S.step ev = T

end System

end DpdkBeginners.Bridge
