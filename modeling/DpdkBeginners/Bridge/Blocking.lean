import DpdkBeginners.Bridge.Connections

/-!
# A session that goes on blocks the CLI

A session whose frontend has closed may connect again.  Then nobody closes the connection: the frontend sends nothing
more, and the CLI waits for its input for ever.

* `System.Abandoned.of_run`: from then on nothing is read from any session, and nothing is printed for another one.
* `System.reaches_abandoned`: it can come to that once any frontend has closed.
* `System.served_or_eof`: it cannot if the timeouts fire in time.
-/

namespace DpdkBeginners.Bridge

open DpdkBeginners.Lib Function

/-! ### A socket that stays open -/

section Late

variable {s : State} {ev : Event} {i : ℕ}

/-- A socket that is open when its frontend has closed. -/
structure Late (s : State) (i : ℕ) : Prop where
  frontend : s.frontendOpen = false
  opened : s.sockets[i]? = some .opened

theorem Late.wsSend (h : Late s i) (text : String) :
    Late (wsSend s text) i ∧ (wsSend s text).written = s.written := by
  rw [Bridge.wsSend, h.frontend]
  exact ⟨h, rfl⟩

theorem Late.set (h : Late s i) {j : ℕ} (hj : j ≠ i) (y : Sock) (n : ℕ) :
    Late { s with sockets := s.sockets.set j y, connectedAfterClose := n } i :=
  ⟨h.frontend, (List.getElem?_set_ne hj).trans h.opened⟩

/-- Such a socket stays open until its `close` event, and nothing is written to it. -/
theorem Late.of_step (h : Late s i) (hen : Enabled s ev) (hne : ev ≠ .close i) :
    Late (step s ev) i ∧ (step s ev).written = s.written := by
  have hclosed : ¬ s.frontendOpen = true := by simp [h.frontend]
  cases ev with
  | connect j =>
    have hj : j ≠ i := by
      rintro rfl
      have hopening : s.sockets[j]? = some .opening := hen
      rw [h.opened] at hopening
      cases hopening
    exact (h.set hj .opened _).wsSend _
  | data j text => exact h.wsSend text
  | close j =>
    have hj : j ≠ i := by
      rintro rfl
      exact hne rfl
    obtain ⟨hlate, hwritten⟩ := (h.set hj .closed s.connectedAfterClose).wsSend "DPDK disconnected, retrying...\n"
    exact ⟨⟨hlate.frontend, hlate.opened⟩, hwritten⟩
  | timeout =>
    obtain ⟨hlt, -⟩ := List.getElem?_eq_some_iff.1 h.opened
    exact ⟨⟨h.frontend, (List.getElem?_append_left hlt).trans h.opened⟩, rfl⟩
  | message msg => exact absurd hen hclosed
  | wsClose => exact absurd hen hclosed

end Late

namespace System

/-! ### A connection that blocks the CLI -/

section Abandoned

variable {S T : System} {ev : Event} {c d : Conn} {k : ℕ} {s : State}

/-- The CLI waits for input on a connection whose frontend has closed. -/
structure Abandoned (S : System) (c : Conn) : Prop where
  served : S.clientFd = some c
  late : ∃ s, S.sessions c.1 = some s ∧ Late s c.2
  unread : S.unread c = 0
  kept : c ∉ S.closed

theorem writes_eq (hs : S.sessions c.1 = some s) : S.writes c = s.written.countP fun w => w.1 = c.2 := by
  rw [writes, hs]

theorem Abandoned.late_step (h : Abandoned S c) (hstep : S.Step ev T) :
    (∃ t, T.sessions c.1 = some t ∧ Late t c.2) ∧ T.writes c = S.writes c := by
  obtain ⟨s, hs, hlate⟩ := h.late
  rcases hstep.session hs with hsame | ⟨e, rfl, hen, hadm, hnew⟩
  · exact ⟨⟨s, hsame, hlate⟩, by rw [writes_eq hsame, writes_eq hs]⟩
  · have hne : e ≠ .close c.2 := by
      rintro rfl
      exact h.kept (hadm hlate.opened).1
    obtain ⟨hlate', hwritten⟩ := hlate.of_step hen hne
    exact ⟨⟨_, hnew, hlate'⟩, by rw [writes_eq hnew, writes_eq hs, hwritten]⟩

theorem Abandoned.not_gone (h : Abandoned S c) : ¬ S.Gone c := by
  rintro ⟨t, ht, hgone⟩
  obtain ⟨s, hs, hlate⟩ := h.late
  obtain rfl : s = t := Option.some.inj (hs.symm.trans ht)
  rw [hlate.opened] at hgone
  rcases hgone with hgone | hgone <;> cases hgone

theorem Abandoned.frame (h : Abandoned S c) (hstep : S.Step ev T) :
    T.clientFd = some c ∧ T.closed = S.closed ∧ T.reads = S.reads ∧
      ∀ d, d ≠ c → List.IsSuffix (T.arriving d) (S.arriving d) := by
  obtain ⟨hen, rfl⟩ := hstep
  cases ev with
  | frontend k => exact ⟨h.served, rfl, rfl, fun _ _ => List.suffix_rfl⟩
  | session k e =>
    obtain ⟨s, hs, -⟩ := hen
    obtain ⟨hfd, hclosed, hreads⟩ := sessionStep_frame S k s e
    rw [step_session hs]
    exact ⟨hfd.trans h.served, hclosed, hreads, fun d _ => sessionStep_arriving S k s e d⟩
  | accept => exact absurd (h.served.symm.trans hen.1) (Option.some_ne_none c)
  | read quits =>
    obtain ⟨d, hd, hpos⟩ := hen
    obtain rfl : c = d := Option.some.inj (h.served.symm.trans hd)
    exact absurd h.unread hpos.ne'
  | print text =>
    rw [step_print h.served]
    refine ⟨h.served, rfl, rfl, fun d hd => ?_⟩
    show List.IsSuffix (update S.arriving c _ d) _
    rw [update_of_ne hd]
  | eof =>
    obtain ⟨d, hd, hgone⟩ := hen
    obtain rfl : c = d := Option.some.inj (h.served.symm.trans hd)
    exact absurd hgone h.not_gone

theorem Abandoned.of_step (h : Abandoned S c) (hstep : S.Step ev T) : Abandoned T c := by
  obtain ⟨hfd, hclosed, hreads, -⟩ := h.frame hstep
  obtain ⟨hlate, hwrites⟩ := h.late_step hstep
  exact
    { served := hfd
      late := hlate
      unread := by
        show T.writes c - T.reads c = 0
        rw [hwrites, hreads]
        exact h.unread
      kept := hclosed ▸ h.kept }

/-- **For ever**: the CLI reads nothing any more and prints nothing for another connection. -/
theorem Abandoned.of_run {evs : List Event} (h : Abandoned S c) (hrun : Run Step S evs T) :
    Abandoned T c ∧ T.reads = S.reads ∧ ∀ d, d ≠ c → List.IsSuffix (T.arriving d) (S.arriving d) := by
  refine hrun.invariant (I := fun T => Abandoned T c ∧ T.reads = S.reads ∧
    ∀ d, d ≠ c → List.IsSuffix (T.arriving d) (S.arriving d)) ⟨h, rfl, fun _ _ => List.suffix_rfl⟩ ?_
  rintro U ev V ⟨hU, hreads, harriving⟩ hstep
  obtain ⟨-, -, hreads', harriving'⟩ := hU.frame hstep
  exact ⟨hU.of_step hstep, hreads'.trans hreads, fun d hd => (harriving' d hd).trans (harriving d hd)⟩

end Abandoned

/-! ### How it comes to that -/

section Reach

variable {S T U : System} {ev : Event} {evs : List Event} {c : Conn} {k n : ℕ} {s : State} {x : Sock}

/-- A run leads to a connection that blocks the CLI. -/
def Blocks (S : System) : Prop := ∃ evs T c, Run Step S evs T ∧ Abandoned T c

theorem Blocks.of_step (hT : Blocks T) (h : S.Step ev T) : Blocks S := by
  obtain ⟨evs, U, c, hrun, hU⟩ := hT
  exact ⟨ev :: evs, U, c, Run.cons_iff.2 ⟨T, h, hrun⟩, hU⟩

theorem Blocks.of_run (hT : Blocks T) (h : Run Step S evs T) : Blocks S := by
  obtain ⟨fs, U, c, hrun, hU⟩ := hT
  exact ⟨evs ++ fs, U, c, h.append hrun, hU⟩

theorem blocks_of_served (hfd : S.clientFd = some c) (hs : S.sessions c.1 = some s) (hlate : Late s c.2)
    (hkept : c ∉ S.closed) : Blocks S := by
  induction hn : S.unread c generalizing S with
  | zero => exact ⟨[], S, c, .refl, hfd, ⟨s, hs, hlate⟩, hn, hkept⟩
  | succ n ih =>
    have hen : S.Enabled (.read false) := ⟨c, hfd, by omega⟩
    refine Blocks.of_step (ih ?_ ?_ ?_ ?_) ⟨hen, step_read hfd⟩
    · exact hfd
    · exact hs
    · exact hkept
    · show S.writes c - update S.reads c (S.reads c + 1) c = n
      rw [update_self, ← Nat.sub_sub]
      show S.unread c - 1 = n
      rw [hn, Nat.add_sub_cancel]

/-- The frontend of a session has closed. -/
def FrontendClosed (S : System) (k : ℕ) : Prop := ∃ s, S.sessions k = some s ∧ s.frontendOpen = false

theorem frontendOpen_step (h : s.frontendOpen = false) (e : Bridge.Event) :
    (Bridge.step s e).frontendOpen = false := by
  cases e with
  | connect i => exact (onConnect_frame s i).1.trans h
  | data i text => exact (wsSend_frame s text).2.2.2.1.trans h
  | close i => exact (onClose_frame s i).1.trans h
  | timeout => exact h
  | message msg => exact (onMessage_frame s msg).1.trans h
  | wsClose =>
    unfold Bridge.step onWsClose destroy
    cases s.client with
    | none => rfl
    | some i =>
      dsimp only
      split_ifs <;> rfl

theorem FrontendClosed.of_step (hS : FrontendClosed S k) (h : S.Step ev T) : FrontendClosed T k := by
  obtain ⟨s, hs, hclosed⟩ := hS
  rcases h.session hs with hsame | ⟨e, -, -, -, hnew⟩
  · exact ⟨s, hsame, hclosed⟩
  · exact ⟨_, hnew, frontendOpen_step hclosed e⟩

/-! #### The CLI is free -/

/-- The CLI serves no connection, and none waits. -/
def Free (S : System) : Prop := S.clientFd = none ∧ S.backlog = []

theorem Inv.end_of_gone (hS : Inv S) (hfd : S.clientFd = some c) (hgone : S.Gone c) :
    ∃ evs T, Run Step S evs T ∧ Inv T ∧ T.clientFd = none ∧ T.backlog = S.backlog := by
  have hstep : S.Step .eof (S.closeClient c) := ⟨⟨c, hfd, hgone⟩, step_eof hfd⟩
  exact ⟨[.eof], _, Run.single_iff.2 hstep, hS.of_step hstep, rfl, rfl⟩

theorem Inv.end_of_served (hS : Inv S) (hfd : S.clientFd = some c) :
    Blocks S ∨ ∃ evs T, Run Step S evs T ∧ Inv T ∧ T.clientFd = none ∧ T.backlog = S.backlog := by
  obtain ⟨s, y, hs, hy, hne⟩ := hS.connected c (mem_conns_of_served hfd)
  cases y with
  | opening => exact absurd rfl hne
  | destroyed => exact .inr (hS.end_of_gone hfd ⟨s, hs, .inl hy⟩)
  | closed => exact .inr (hS.end_of_gone hfd ⟨s, hs, .inr hy⟩)
  | opened =>
    cases hopen : s.frontendOpen with
    | false => exact .inl (blocks_of_served hfd hs ⟨hopen, hy⟩ (hS.notMem_closed hfd))
    | true =>
      obtain ⟨n, x, hshape⟩ := hS.sessions _ _ hs
      obtain ⟨hn, rfl⟩ := hshape.getElem? hy (by simp)
      have hstep : S.Step (.session c.1 .wsClose) (S.sessionStep c.1 s .wsClose) :=
        ⟨⟨s, hs, hopen, trivial⟩, step_session hs⟩
      have hlast : (onWsClose s).sockets[c.2]? = some .destroyed := hn ▸ hshape.wsClose.last
      have hgone : (S.sessionStep c.1 s .wsClose).Gone c := ⟨_, update_self .., .inl hlast⟩
      obtain ⟨evs, T, hrun, hT, hfd', hbacklog⟩ := (hS.of_step hstep).end_of_gone hfd hgone
      exact .inr ⟨_ :: evs, T, Run.cons_iff.2 ⟨_, hstep, hrun⟩, hT, hfd', hbacklog⟩

/-- All connections may end, one after the other. -/
theorem reaches_free (hS : Inv S) (hk : FrontendClosed S k) :
    ∃ evs T, Run Step S evs T ∧ (Inv T ∧ FrontendClosed T k) ∧ (Free T ∨ Blocks T) := by
  refine Run.reaches (I := fun S => Inv S ∧ FrontendClosed S k) (P := fun S => Free S ∨ Blocks S)
    (fun S => 2 * S.backlog.length + S.clientFd.toList.length) ?_ ⟨hS, hk⟩
  rintro S ⟨hS, hk⟩ hnot
  obtain ⟨hfree, hblocks⟩ := not_or.1 hnot
  have hclosed : ∀ {evs T}, Run Step S evs T → FrontendClosed T k := fun hrun =>
    hrun.invariant hk fun _ _ _ => FrontendClosed.of_step
  cases hfd : S.clientFd with
  | some c =>
    rcases hS.end_of_served hfd with h | ⟨evs, T, hrun, hT, hfd', hbacklog⟩
    · exact absurd h hblocks
    · refine ⟨evs, T, hrun, ⟨hT, hclosed hrun⟩, .inr ?_⟩
      rw [hfd', hbacklog]
      simp
  | none =>
    cases hb : S.backlog with
    | nil => exact absurd ⟨hfd, hb⟩ hfree
    | cons c backlog =>
      have hne : S.backlog ≠ [] := by simp [hb]
      have hstep : S.Step .accept _ := ⟨⟨hfd, hne⟩, step_accept hb⟩
      have hrun := Run.single_iff.2 hstep
      exact ⟨[.accept], _, hrun, ⟨hS.of_step hstep, hclosed hrun⟩, .inr (by simp; omega)⟩

/-! #### A session connects again -/

/-- A session whose frontend has closed, by its last socket, while the CLI is free. -/
structure Waits (S : System) (k n : ℕ) (x : Sock) : Prop where
  inv : Inv S
  free : Free S
  session : ∃ s, S.sessions k = some s ∧ s.frontendOpen = false ∧ Shape s n x

theorem Waits.opening (h : Waits S k n .opening) : Blocks S := by
  obtain ⟨hS, ⟨hfd, hb⟩, s, hs, hclosed, hshape⟩ := h
  have hconnect : S.Step (.session k (.connect n)) (S.sessionStep k s (.connect n)) :=
    ⟨⟨s, hs, hshape.last, trivial⟩, step_session hs⟩
  have hbacklog : (S.sessionStep k s (.connect n)).backlog = [(k, n)] := by
    show S.backlog ++ [(k, n)] = _
    rw [hb, List.nil_append]
  have haccept : (S.sessionStep k s (.connect n)).Step .accept _ :=
    ⟨⟨hfd, by simp [hbacklog]⟩, step_accept hbacklog⟩
  refine Blocks.of_step (Blocks.of_step ?_ haccept) hconnect
  refine blocks_of_served (c := (k, n)) rfl (update_self ..) ⟨?_, connect_opened hshape.last⟩ ?_
  · exact frontendOpen_step hclosed _
  · exact ((hS.of_step hconnect).of_step haccept).notMem_closed rfl

theorem Waits.of_step {e : Bridge.Event} {m : ℕ} {y : Sock} (h : Waits S k n x) (hconnect : ∀ i, e ≠ .connect i)
    (hen : ∀ s, S.sessions k = some s → Shape s n x →
      Bridge.Enabled s e ∧ S.Admits k s e ∧ Shape (Bridge.step s e) m y) :
    ∃ T, S.Step (.session k e) T ∧ Waits T k m y := by
  obtain ⟨hS, hfree, s, hs, hclosed, hshape⟩ := h
  obtain ⟨hen, hadm, hshape'⟩ := hen s hs hshape
  have hstep : S.Step (.session k e) (S.sessionStep k s e) := ⟨⟨s, hs, hen, hadm⟩, step_session hs⟩
  refine ⟨_, hstep, hS.of_step hstep, ?_, _, update_self .., frontendOpen_step hclosed e, hshape'⟩
  cases e with
  | connect i => exact absurd rfl (hconnect i)
  | data i text => exact hfree
  | close i => exact hfree
  | timeout => exact hfree
  | message msg => exact hfree
  | wsClose => exact hfree

theorem Waits.closed (h : Waits S k n .closed) : Blocks S := by
  obtain ⟨T, hstep, hT⟩ : ∃ T, S.Step (.session k .timeout) T ∧ Waits T k (n + 1) .opening :=
    h.of_step (by simp) fun s _ hshape => by
      have hpos : 0 < s.timers := by
        rw [hshape.timers]
        decide
      exact ⟨hpos, trivial, (hshape.timeout hpos).2⟩
  exact hT.opening.of_step hstep

theorem Waits.close (h : Waits S k n x) (hx : x ≠ .closed)
    (hadm : x = .opened → (k, n) ∈ S.closed ∧ S.arriving (k, n) = []) : Blocks S := by
  obtain ⟨T, hstep, hT⟩ : ∃ T, S.Step (.session k (.close n)) T ∧ Waits T k n .closed :=
    h.of_step (by simp) fun s _ hshape => by
      have hen : Bridge.Enabled s (.close n) := ⟨x, hshape.last, hx⟩
      refine ⟨hen, fun hopen => hadm ?_, hshape.close hen⟩
      exact Option.some.inj (hshape.last.symm.trans hopen)
  exact hT.closed.of_step hstep

theorem Waits.opened (h : Waits S k n .opened) : Blocks S := by
  induction ha : S.arriving (k, n) generalizing S with
  | nil =>
    refine h.close (by simp) fun _ => ⟨?_, ha⟩
    obtain ⟨hS, ⟨hfd, hb⟩, s, hs, -, hshape⟩ := h
    have hmem := hS.opened k s n hs hshape.last
    rw [conns, hfd, hb] at hmem
    simpa using hmem
  | cons text texts ih =>
    have hhead : (S.arriving (k, n)).head? = some text := by rw [ha, List.head?_cons]
    obtain ⟨T, hstep, hT⟩ : ∃ T, S.Step (.session k (.data n text)) T ∧ Waits T k n .opened :=
      h.of_step (by simp) fun s _ hshape => ⟨hshape.last, hhead, hshape.wsSend text⟩
    refine (ih hT ?_).of_step hstep
    obtain ⟨s, hs, -⟩ := h.session
    rw [← hstep.2, step_session hs]
    show update S.arriving (k, n) _ (k, n) = texts
    rw [update_self, ha, List.tail_cons]

/-- **It can come to that** once any frontend has closed. -/
theorem reaches_abandoned (hS : Inv S) (hk : FrontendClosed S k) : Blocks S := by
  obtain ⟨evs, T, hrun, ⟨hT, s, hs, hclosed⟩, hfree | hblocks⟩ := reaches_free hS hk
  · obtain ⟨n, x, hshape⟩ := hT.sessions k s hs
    have hwaits : Waits T k n x := ⟨hT, hfree, s, hs, hclosed, hshape⟩
    refine Blocks.of_run ?_ hrun
    cases x with
    | opening => exact hwaits.opening
    | opened => exact hwaits.opened
    | destroyed => exact hwaits.close (by simp) (by simp)
    | closed => exact hwaits.closed
  · exact hblocks.of_run hrun

end Reach

/-! ### Timeouts that fire in time -/

section Timely

variable {S T : System} {ev : Event} {evs : List Event} {c : Conn}

/-- No timeout fires in a session whose frontend has closed. -/
def Timely (S : System) (ev : Event) : Prop :=
  ∀ k s, ev = .session k .timeout → S.sessions k = some s → s.frontendOpen = true

/-- Every session is quiet. -/
def Quiet (S : System) : Prop := ∀ k s, S.sessions k = some s → Bridge.Quiet s

theorem Quiet.of_step (hS : Quiet S) (h : S.Step ev T) (htimely : Timely S ev) : Quiet T := by
  intro k t ht
  rcases h.session_of ht with ⟨-, rfl⟩ | ⟨s, hs, rfl | ⟨e, rfl, hstep⟩⟩
  · refine ⟨rfl, 0, _, shape_init, ?_⟩
    intro hclosed
    cases hclosed
  · exact hS k t hs
  · exact (hS k s hs).of_step hstep fun he => htimely k s (by rw [he]) hs

/-- The CLI waits for a frontend that is there, or not for long. -/
theorem served_or_eof (hS : Inv S) (hquiet : Quiet S) (hfd : S.clientFd = some c) :
    (∃ s, S.sessions c.1 = some s ∧ s.frontendOpen = true) ∨ S.Enabled .eof := by
  obtain ⟨s, y, hs, hy, hne⟩ := hS.connected c (mem_conns_of_served hfd)
  cases hopen : s.frontendOpen with
  | true => exact .inl ⟨s, hs, hopen⟩
  | false =>
    refine .inr ⟨c, hfd, s, hs, ?_⟩
    obtain ⟨-, n, x, hshape, hx⟩ := hquiet _ _ hs
    by_cases hc : y = .closed
    · exact .inr (hc ▸ hy)
    · obtain ⟨-, rfl⟩ := hshape.getElem? hy hc
      rcases hx hopen with rfl | rfl
      · exact .inl hy
      · exact absurd rfl hc

end Timely

/-- **The CLI and the sessions.**  When the CLI waits on a connection whose frontend has closed, it does so for ever: it
reads nothing any more, and prints nothing for another connection.  Once any frontend has closed, some run leads there;
but none if each timeout fires before its frontend closes, for then the CLI waits for a frontend that is open, or its
input ends. -/
theorem cli_blocks {S : System} {evs : List Event} (h : Run Step start evs S) :
    (∀ c, Abandoned S c → ∀ evs' T, Run Step S evs' T →
      Abandoned T c ∧ T.reads = S.reads ∧ ∀ d, d ≠ c → List.IsSuffix (T.arriving d) (S.arriving d)) ∧
    (∀ k, FrontendClosed S k → ∃ evs' T c, Run Step S evs' T ∧ Abandoned T c) ∧
    (Run (fun a ev b => Step a ev b ∧ Timely a ev) start evs S → ∀ c, S.clientFd = some c →
      (∃ s, S.sessions c.1 = some s ∧ s.frontendOpen = true) ∨ S.Enabled .eof) := by
  refine ⟨fun c hc evs' T hrun => hc.of_run hrun, fun k hk => reaches_abandoned (run_inv h) hk, ?_⟩
  intro htimely c hfd
  refine served_or_eof (run_inv h) ?_ hfd
  refine htimely.invariant ?_ fun _ _ _ hS hstep => hS.of_step hstep.1 hstep.2
  intro k s hs
  cases hs

/-- A frontend that leaves before its session has connected. -/
def leaving : List Event := [.frontend 0, .session 0 .wsClose]

theorem cli_blocks_leaving : ∃ evs T c, Run Step (leaving.foldl step start) evs T ∧ Abandoned T c := by
  have hrun : Run Step start leaving (leaving.foldl step start) :=
    Run.cons_iff.2 ⟨_, ⟨rfl, rfl⟩, Run.single_iff.2 ⟨⟨_, rfl, rfl, trivial⟩, rfl⟩⟩
  exact (cli_blocks hrun).2.1 0 ⟨_, rfl, rfl⟩

end System

end DpdkBeginners.Bridge
