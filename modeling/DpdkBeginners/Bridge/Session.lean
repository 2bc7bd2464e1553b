import DpdkBeginners.Bridge.Defs

/-!
# The life of a session

A socket that closes leaves a timeout behind, and a timeout that fires leaves a socket behind.  So there is
always one of the two, and never both: there is at most one connection at any time, and for the same reason
the session never stops connecting, not even when the frontend has closed.
-/

namespace DpdkBeginners.Bridge

open DpdkBeginners.Lib

variable {s t : State} {ev : Event} {evs : List Event}

/-! ### The invariant -/

/-- All sockets but the last one are closed, the last one is `client` and in the state `x`, and a timeout
is set if it is closed as well. -/
structure Shape (s : State) (n : ℕ) (x : Sock) : Prop where
  sockets : s.sockets = List.replicate n .closed ++ [x]
  client : s.client = some n
  timers : s.timers = if x = .closed then 1 else 0

theorem shape_init : Shape init 0 .opening := ⟨rfl, rfl, rfl⟩

section Shape

variable {n i : ℕ} {x y : Sock}

theorem Shape.getElem? (h : Shape s n x) (hi : s.sockets[i]? = some y) (hy : y ≠ .closed) :
    i = n ∧ y = x := by
  rw [h.sockets] at hi
  rcases Nat.lt_trichotomy i n with hlt | rfl | hgt
  · rw [List.getElem?_append_left (by simpa using hlt), List.getElem?_replicate, if_pos hlt] at hi
    exact absurd (Option.some_inj.1 hi).symm hy
  · rw [List.getElem?_append_right (by simp)] at hi
    simp only [List.length_replicate, Nat.sub_self, List.getElem?_cons_zero, Option.some_inj] at hi
    exact ⟨rfl, hi.symm⟩
  · rw [List.getElem?_eq_none (by simp; omega)] at hi
    exact absurd hi (by simp)

theorem Shape.last (h : Shape s n x) : s.sockets[n]? = some x := by
  rw [h.sockets, List.getElem?_append_right (by simp)]
  simp

theorem Shape.set (h : Shape s n x) (y : Sock) :
    s.sockets.set n y = List.replicate n .closed ++ [y] := by
  rw [h.sockets, List.set_append_right _ _ (by simp)]
  simp

theorem wsSend_frame (s : State) (text : String) :
    (wsSend s text).sockets = s.sockets ∧ (wsSend s text).client = s.client ∧
      (wsSend s text).timers = s.timers ∧ (wsSend s text).frontendOpen = s.frontendOpen ∧
      (wsSend s text).connectedAfterClose = s.connectedAfterClose := by
  unfold wsSend
  split_ifs <;> exact ⟨rfl, rfl, rfl, rfl, rfl⟩

theorem Shape.wsSend (h : Shape s n x) (text : String) : Shape (wsSend s text) n x := by
  obtain ⟨h₁, h₂, h₃, -, -⟩ := wsSend_frame s text
  exact ⟨h₁.trans h.sockets, h₂.trans h.client, h₃.trans h.timers⟩

/-! ### What an event does -/

theorem Shape.connect (h : Shape s n x) (hen : Enabled s (.connect i)) :
    i = n ∧ x = .opening ∧ Shape (onConnect s i) n .opened := by
  obtain ⟨rfl, rfl⟩ := h.getElem? hen (by simp)
  have hset : Shape { s with
      sockets := s.sockets.set i .opened
      connectedAfterClose := s.connectedAfterClose + if s.frontendOpen then 0 else 1 } i .opened :=
    ⟨h.set .opened, h.client, h.timers⟩
  exact ⟨rfl, rfl, hset.wsSend _⟩

theorem Shape.close (h : Shape s n x) (hen : Enabled s (.close i)) :
    Shape (onClose s i) n .closed := by
  obtain ⟨y, hi, hy⟩ := hen
  obtain ⟨rfl, rfl⟩ := h.getElem? hi hy
  obtain ⟨h₁, h₂, h₃, -, -⟩ :=
    wsSend_frame { s with sockets := s.sockets.set i .closed } "DPDK disconnected, retrying...\n"
  refine ⟨h₁.trans (h.set .closed), h₂.trans h.client, ?_⟩
  have htimers := h.timers
  rw [if_neg hy] at htimers
  show (Bridge.wsSend _ _).timers + 1 = 1
  rw [h₃, htimers]

/-- A timeout is set only when the last socket is closed, and it creates the next one. -/
theorem Shape.timeout (h : Shape s n x) (hen : Enabled s .timeout) :
    x = .closed ∧ Shape (onTimeout s) (n + 1) .opening := by
  have htimers := h.timers
  have hpos : 0 < s.timers := hen
  have hx : x = .closed := by
    by_contra hx
    rw [if_neg hx] at htimers
    omega
  rw [if_pos hx] at htimers
  refine ⟨hx, ?_, ?_, ?_⟩
  · show s.sockets ++ [.opening] = _
    rw [h.sockets, hx, List.replicate_succ']
  · show some s.sockets.length = some (n + 1)
    rw [h.sockets]
    simp
  · show s.timers - 1 = 0
    rw [htimers]

/-- The frontend closes: the last socket is destroyed, unless it is closed already. -/
theorem Shape.wsClose (h : Shape s n x) :
    Shape (onWsClose s) n (if x = .closed then .closed else .destroyed) := by
  unfold onWsClose
  simp only [h.client, destroy]
  by_cases hx : x = .closed
  · rw [if_pos hx, if_pos (by rw [h.last, hx])]
    exact ⟨hx ▸ h.sockets, rfl, by simpa [hx] using h.timers⟩
  · rw [if_neg hx, if_neg (by rw [h.last]; simpa using hx)]
    exact ⟨h.set .destroyed, rfl, by simpa [hx] using h.timers⟩

theorem Shape.message (h : Shape s n x) (msg : String) : Shape (onMessage s msg) n x := by
  unfold onMessage
  simp only [h.client]
  split_ifs
  · exact ⟨h.sockets, rfl, h.timers⟩
  · exact h.wsSend _

end Shape

/-- **The invariant**: all sockets but the last one are closed. -/
def Inv (s : State) : Prop := ∃ n x, Shape s n x

theorem Inv.of_step (hs : Inv s) (h : Step s ev t) : Inv t := by
  obtain ⟨n, x, hshape⟩ := hs
  obtain ⟨hen, rfl⟩ := h
  cases ev with
  | connect i => exact ⟨n, _, (hshape.connect hen).2.2⟩
  | data i text => exact ⟨n, x, hshape.wsSend text⟩
  | close i => exact ⟨n, _, hshape.close hen⟩
  | timeout => exact ⟨n + 1, _, (hshape.timeout hen).2⟩
  | message msg => exact ⟨n, x, hshape.message msg⟩
  | wsClose => exact ⟨n, _, hshape.wsClose⟩

theorem run_inv (h : Run Step init evs s) : Inv s :=
  h.invariant ⟨0, _, shape_init⟩ fun _ _ _ => Inv.of_step

/-- How many connections are open. -/
def connections (s : State) : ℕ := s.sockets.count .opened

theorem Inv.connections_le (hs : Inv s) : connections s ≤ 1 := by
  obtain ⟨n, x, hshape⟩ := hs
  rw [connections, hshape.sockets, List.count_append, List.count_eq_zero_of_not_mem (by simp),
    Nat.zero_add]
  exact List.count_le_length

/-! ### After the frontend has closed -/

section Frame

variable (s) (i : ℕ)

theorem onConnect_frame :
    (onConnect s i).frontendOpen = s.frontendOpen ∧
      (onConnect s i).connectedAfterClose =
        s.connectedAfterClose + if s.frontendOpen then 0 else 1 :=
  (wsSend_frame _ _).2.2.2

theorem onClose_frame :
    (onClose s i).frontendOpen = s.frontendOpen ∧
      (onClose s i).connectedAfterClose = s.connectedAfterClose :=
  (wsSend_frame { s with sockets := s.sockets.set i .closed } _).2.2.2

theorem onMessage_frame (msg : String) :
    (onMessage s msg).frontendOpen = s.frontendOpen ∧
      (onMessage s msg).connectedAfterClose = s.connectedAfterClose := by
  have hsend := (wsSend_frame s "DPDK not connected\n").2.2.2
  unfold onMessage
  cases s.client with
  | none => exact hsend
  | some i =>
    dsimp only
    split_ifs
    · exact ⟨rfl, rfl⟩
    · exact hsend

end Frame

/-- The timeout fires before the frontend closes, if at all. -/
def Timely (s : State) (ev : Event) : Prop := ev = .timeout → s.frontendOpen = true

/-- The last socket does not connect any more, and none has connected too late. -/
def Quiet (s : State) : Prop :=
  s.connectedAfterClose = 0 ∧
    ∃ n x, Shape s n x ∧ (s.frontendOpen = false → x = .destroyed ∨ x = .closed)

theorem Quiet.of_step (hs : Quiet s) (h : Step s ev t) (htimely : Timely s ev) : Quiet t := by
  obtain ⟨hzero, n, x, hshape, hquiet⟩ := hs
  obtain ⟨hen, rfl⟩ := h
  cases ev with
  | connect i =>
    obtain ⟨-, hx, hshape'⟩ := hshape.connect hen
    obtain ⟨hf, hc⟩ := onConnect_frame s i
    have hopen : s.frontendOpen = true := by
      by_contra hclosed
      rcases hquiet (by simpa using hclosed) with h | h
      · simp [h] at hx
      · simp [h] at hx
    rw [hopen] at hf
    refine ⟨hc.trans (by simp [hopen, hzero]), n, _, hshape', ?_⟩
    intro hclosed
    exact absurd (hf.symm.trans hclosed) (by simp)
  | data i text =>
    obtain ⟨-, -, -, hf, hc⟩ := wsSend_frame s text
    exact ⟨hc.trans hzero, n, x, hshape.wsSend text, fun hclosed => hquiet (hf.symm.trans hclosed)⟩
  | close i =>
    exact ⟨(onClose_frame s i).2.trans hzero, n, _, hshape.close hen, fun _ => .inr rfl⟩
  | timeout =>
    refine ⟨hzero, n + 1, _, (hshape.timeout hen).2, ?_⟩
    intro hclosed
    have hclosed' : s.frontendOpen = false := hclosed
    rw [htimely rfl] at hclosed'
    exact absurd hclosed' (by simp)
  | message msg =>
    obtain ⟨hf, hc⟩ := onMessage_frame s msg
    exact ⟨hc.trans hzero, n, x, hshape.message msg, fun hclosed => hquiet (hf.symm.trans hclosed)⟩
  | wsClose =>
    refine ⟨?_, n, _, hshape.wsClose, ?_⟩
    · show (onWsClose s).connectedAfterClose = 0
      unfold onWsClose
      simp only [hshape.client, destroy]
      split_ifs <;> exact hzero
    · intro _
      split_ifs
      · exact .inr rfl
      · exact .inl rfl

section Reconnect

variable {n : ℕ} {x : Sock}

theorem reconnect_of_opening (h : Shape s n .opening) (hclosed : s.frontendOpen = false) :
    ∃ evs t, Run Step s evs t ∧ s.connectedAfterClose < t.connectedAfterClose := by
  refine ⟨[.connect n], onConnect s n, Run.single_iff.2 ⟨h.last, rfl⟩, ?_⟩
  simp [onConnect, wsSend, hclosed]

theorem reconnect_of_closed (h : Shape s n .closed) (hclosed : s.frontendOpen = false) :
    ∃ evs t, Run Step s evs t ∧ s.connectedAfterClose < t.connectedAfterClose := by
  have hen : Enabled s .timeout := by
    show 0 < s.timers
    rw [h.timers]
    decide
  obtain ⟨evs, t, hrun, hlt⟩ := reconnect_of_opening (h.timeout hen).2 hclosed
  exact ⟨.timeout :: evs, t, Run.cons_iff.2 ⟨_, ⟨hen, rfl⟩, hrun⟩, hlt⟩

theorem Inv.reconnect (hs : Inv s) (hclosed : s.frontendOpen = false) :
    ∃ evs t, Run Step s evs t ∧ s.connectedAfterClose < t.connectedAfterClose := by
  obtain ⟨n, x, hshape⟩ := hs
  by_cases hx : x = .closed
  · exact reconnect_of_closed (hx ▸ hshape) hclosed
  · -- the last socket closes first
    have hen : Enabled s (.close n) := ⟨x, hshape.last, hx⟩
    obtain ⟨hf, hc⟩ := onClose_frame s n
    obtain ⟨evs, t, hrun, hlt⟩ := reconnect_of_closed (hshape.close hen) (hf.trans hclosed)
    rw [hc] at hlt
    exact ⟨.close n :: evs, t, Run.cons_iff.2 ⟨_, ⟨hen, rfl⟩, hrun⟩, hlt⟩

end Reconnect

/-- **The session.**  There is at most one connection at any time.  If no timeout fires after the frontend
has closed, no socket connects after that.  But once it has closed, the session can always go on to connect
again. -/
theorem session_lifecycle (h : Run Step init evs s) :
    connections s ≤ 1 ∧
    (Run (fun a ev b => Step a ev b ∧ Timely a ev) init evs s → s.connectedAfterClose = 0) ∧
    (s.frontendOpen = false →
      ∃ evs' t, Run Step s evs' t ∧ s.connectedAfterClose < t.connectedAfterClose) := by
  have hs := run_inv h
  refine ⟨hs.connections_le, ?_, hs.reconnect⟩
  intro htimely
  have hstart : Quiet init := ⟨rfl, 0, _, shape_init, fun hclosed => absurd hclosed (by decide)⟩
  exact (htimely.invariant hstart fun _ _ _ ha hstep => ha.of_step hstep.1 hstep.2).1

/-! ### A session that closes -/

/-- The frontend closes while the socket is connected, and the CLI accepts the next connection. -/
def lateReconnect : List Event := [.connect 0, .wsClose, .close 0, .timeout, .connect 1]

theorem run_lateReconnect : Run Step init lateReconnect (lateReconnect.foldl step init) :=
  Run.cons_iff.2 ⟨_, ⟨rfl, rfl⟩,
    Run.cons_iff.2 ⟨_, ⟨rfl, rfl⟩,
      Run.cons_iff.2 ⟨_, ⟨⟨.destroyed, rfl, by decide⟩, rfl⟩,
        Run.cons_iff.2 ⟨_, ⟨Nat.one_pos, rfl⟩, Run.single_iff.2 ⟨rfl, rfl⟩⟩⟩⟩⟩

theorem connects_after_close :
    ¬ ∀ (evs : List Event) (s : State), Run Step init evs s → s.connectedAfterClose = 0 :=
  fun h => absurd (h _ _ run_lateReconnect) (by decide)

/-- The same session before the timeout fires. -/
def closing : List Event := [.connect 0, .wsClose, .close 0]

theorem session_lifecycle_closing :
    connections (closing.foldl step init) ≤ 1 ∧
      (closing.foldl step init).connectedAfterClose = 0 ∧
      ∃ evs t, Run Step (closing.foldl step init) evs t ∧ 0 < t.connectedAfterClose := by
  have hrun : Run (fun a ev b => Step a ev b ∧ Timely a ev) init closing (closing.foldl step init) :=
    Run.cons_iff.2 ⟨_, ⟨⟨rfl, rfl⟩, by simp [Timely]⟩,
      Run.cons_iff.2 ⟨_, ⟨⟨rfl, rfl⟩, by simp [Timely]⟩,
        Run.single_iff.2 ⟨⟨⟨.destroyed, rfl, by decide⟩, rfl⟩, by simp [Timely]⟩⟩⟩
  obtain ⟨hle, hnone, hagain⟩ := session_lifecycle (hrun.mono fun _ _ _ hstep => hstep.1)
  exact ⟨hle, hnone hrun, hagain rfl⟩

end DpdkBeginners.Bridge
