import DpdkBeginners.Lib.Run
import Mathlib.Data.Nat.Notation

/-!
# The bridge of `cli/websocket/backend/server.js`

One frontend session: the handlers that `wss.on('connection', …)` installs, and the sockets they create.

* `sockets` are the sockets that `connectDPDK` has created, in order, and `client` is the index of the last
  one.  A socket that is destroyed emits its `close` event later.
* `timers` counts the timeouts of `setTimeout(connectDPDK, 1000)` that have not fired yet.
* `ws.send` on a session that is closed does nothing.
* `connectedAfterClose` is the history: how many sockets have connected after the `close` event of the
  frontend.

The handler of the `error` event only prints, and is left out.
-/

namespace DpdkBeginners.Bridge

open DpdkBeginners.Lib

/-- The state of a socket. -/
inductive Sock
  | opening
  | opened
  | destroyed
  | closed
  deriving DecidableEq

/-- The state of a session. -/
structure State where
  sockets : List Sock
  client : Option ℕ
  timers : ℕ
  frontendOpen : Bool
  sent : List String
  written : List (ℕ × String)
  connectedAfterClose : ℕ

variable (s : State)

/-- `ws.send`. -/
def wsSend (text : String) : State :=
  if s.frontendOpen then { s with sent := s.sent ++ [text] } else s

/-- `connectDPDK`. -/
def connectDPDK : State :=
  { s with sockets := s.sockets ++ [.opening], client := some s.sockets.length }

/-- `client.destroy`, of the socket `i`. -/
def destroy (i : ℕ) : State :=
  if s.sockets[i]? = some .closed then s else { s with sockets := s.sockets.set i .destroyed }

/-- The state when the handlers have been installed. -/
def init : State := connectDPDK ⟨[], none, 0, true, [], [], 0⟩

/-! ### The handlers -/

/-- The callback of `client.connect`. -/
def onConnect (i : ℕ) : State :=
  wsSend
    { s with
      sockets := s.sockets.set i .opened
      connectedAfterClose := s.connectedAfterClose + if s.frontendOpen then 0 else 1 }
    "Connected to DPDK\n"

/-- `client.on('data', …)`. -/
def onData (data : String) : State := wsSend s data

/-- `client.on('close', …)`. -/
def onClose (i : ℕ) : State :=
  let s := wsSend { s with sockets := s.sockets.set i .closed } "DPDK disconnected, retrying...\n"
  { s with timers := s.timers + 1 }

/-- A timeout fires. -/
def onTimeout : State := connectDPDK { s with timers := s.timers - 1 }

/-- `ws.on('message', …)`. -/
def onMessage (msg : String) : State :=
  match s.client with
  | some i =>
    if s.sockets[i]? = some .opened then { s with written := s.written ++ [(i, msg ++ "\n")] }
    else wsSend s "DPDK not connected\n"
  | none => wsSend s "DPDK not connected\n"

/-- `ws.on('close', …)`. -/
def onWsClose : State :=
  let s := { s with frontendOpen := false }
  match s.client with
  | some i => destroy s i
  | none => s

/-! ### Runs -/

/-- The events of a session; those of a socket come with its index. -/
inductive Event
  | connect (i : ℕ)
  | data (i : ℕ) (text : String)
  | close (i : ℕ)
  | timeout
  | message (msg : String)
  | wsClose

/-- When an event can happen.  A socket that is opening fails, one that is open is closed by either side,
and one that is destroyed is closed; each emits `close` once. -/
def Enabled : Event → Prop
  | .connect i => s.sockets[i]? = some .opening
  | .data i _ => s.sockets[i]? = some .opened
  | .close i => ∃ x, s.sockets[i]? = some x ∧ x ≠ .closed
  | .timeout => 0 < s.timers
  | .message _ => s.frontendOpen = true
  | .wsClose => s.frontendOpen = true

/-- The state after an event. -/
def step : Event → State
  | .connect i => onConnect s i
  | .data _ text => onData s text
  | .close i => onClose s i
  | .timeout => onTimeout s
  | .message msg => onMessage s msg
  | .wsClose => onWsClose s

/-- One event of the session. -/
def Step (ev : Event) (t : State) : Prop := Enabled s ev ∧ step s ev = t

end DpdkBeginners.Bridge
