import DpdkBeginners.Bridge.CliServer
import DpdkBeginners.Bridge.Session
import Mathlib.Data.List.Infix

/-!
# The connections of the CLI

The invariant of the bridge and the CLI (`System.Inv`): the connections of the CLI, in the order in which they are
accepted and closed, are those of the sockets that have connected.
-/

namespace DpdkBeginners.Bridge

open DpdkBeginners.Lib Function

/-! ### An event of a session -/

section Sockets

variable {s : State} {ev : Event} {i : ℕ} {y : Sock}

theorem sockets_step (s : State) (ev : Event) :
    (∃ i y, y ≠ .opening ∧ (y = .opened → ev = .connect i) ∧ (step s ev).sockets = s.sockets.set i y) ∨
      (step s ev).sockets = s.sockets ++ [.opening] ∨ (step s ev).sockets = s.sockets := by
  cases ev with
  | connect i => exact .inl ⟨i, .opened, by simp, fun _ => rfl, (wsSend_frame _ _).1⟩
  | data i text => exact .inr (.inr (wsSend_frame _ _).1)
  | close i => exact .inl ⟨i, .closed, by simp, by simp, (wsSend_frame { s with sockets := _ } _).1⟩
  | timeout => exact .inr (.inl rfl)
  | message msg =>
    refine .inr (.inr ?_)
    have hsend := (wsSend_frame s "DPDK not connected\n").1
    unfold step onMessage
    cases s.client with
    | none => exact hsend
    | some i =>
      dsimp only
      split_ifs
      · rfl
      · exact hsend
  | wsClose =>
    unfold step onWsClose destroy
    cases s.client with
    | none => exact .inr (.inr rfl)
    | some i =>
      dsimp only
      split_ifs
      · exact .inr (.inr rfl)
      · exact .inl ⟨i, .destroyed, by simp, by simp, rfl⟩

/-- A socket that is no longer opening never opens again. -/
theorem connected_step (ev : Event) (h : s.sockets[i]? = some y) (hy : y ≠ .opening) :
    ∃ z, (step s ev).sockets[i]? = some z ∧ z ≠ .opening := by
  obtain ⟨hlt, -⟩ := List.getElem?_eq_some_iff.1 h
  rcases sockets_step s ev with ⟨j, z, hz, -, hset⟩ | happ | hsame
  · rw [hset, List.getElem?_set]
    split_ifs with hij hj
    · exact ⟨z, rfl, hz⟩
    · exact absurd (hij ▸ hlt) hj
    · exact ⟨y, h, hy⟩
  · exact ⟨y, by rw [happ, List.getElem?_append_left hlt, h], hy⟩
  · exact ⟨y, by rw [hsame, h], hy⟩

theorem opened_step (h : (step s ev).sockets[i]? = some .opened) :
    s.sockets[i]? = some .opened ∨ ev = .connect i := by
  rcases sockets_step s ev with ⟨j, z, -, hz, hset⟩ | happ | hsame
  · rw [hset, List.getElem?_set] at h
    split_ifs at h with hij hj
    · exact .inr (hij ▸ hz (Option.some.inj h))
    · exact .inl h
  · rw [happ] at h
    rcases List.mem_append.1 (List.mem_of_getElem? h) with hmem | hmem
    · refine .inl ?_
      rcases Nat.lt_or_ge i s.sockets.length with hlt | hge
      · rwa [List.getElem?_append_left hlt] at h
      · rw [List.getElem?_append_right hge] at h
        have hone := List.mem_of_getElem? h
        simp at hone
    · simp at hmem
  · exact .inl (hsame ▸ h)

end Sockets

/-! ### Steps -/

namespace System

section Steps

variable {S T : System} {ev : Event} {e : Bridge.Event} {c d : Conn} {k : ℕ} {s t : State}

theorem step_session (hs : S.sessions k = some s) : S.step (.session k e) = S.sessionStep k s e := by
  rw [step, hs]

theorem step_accept {backlog : List Conn} (h : S.backlog = c :: backlog) :
    S.step .accept = { S with clientFd := some c, backlog := backlog } := by
  rw [step, h]

theorem step_print (h : S.clientFd = some c) (text : String) :
    S.step (.print text) = { S with arriving := update S.arriving c (S.arriving c ++ [text]) } := by
  rw [step, h]

theorem step_read (h : S.clientFd = some c) :
    S.step (.read false) = { S with reads := update S.reads c (S.reads c + 1) } := by
  rw [step, h]
  rfl

theorem step_eof (h : S.clientFd = some c) : S.step .eof = S.closeClient c := by
  rw [step, h]

theorem sessionStep_frame (S : System) (k : ℕ) (s : State) (e : Bridge.Event) :
    (S.sessionStep k s e).clientFd = S.clientFd ∧ (S.sessionStep k s e).closed = S.closed ∧
      (S.sessionStep k s e).reads = S.reads := by
  cases e <;> exact ⟨rfl, rfl, rfl⟩

theorem sessionStep_arriving (S : System) (k : ℕ) (s : State) (e : Bridge.Event) (d : Conn) :
    List.IsSuffix ((S.sessionStep k s e).arriving d) (S.arriving d) := by
  cases e with
  | data i text =>
    show List.IsSuffix (update S.arriving (k, i) _ d) _
    by_cases hd : d = (k, i)
    · rw [hd, update_self]
      exact List.tail_suffix _
    · rw [update_of_ne hd]
  | connect i => exact List.suffix_rfl
  | close i => exact List.suffix_rfl
  | timeout => exact List.suffix_rfl
  | message msg => exact List.suffix_rfl
  | wsClose => exact List.suffix_rfl

theorem sessions_step (S : System) (ev : Event) :
    (S.step ev).sessions = S.sessions ∨
      (∃ k, ev = .frontend k ∧ (S.step ev).sessions = update S.sessions k (some init)) ∨
        ∃ k s e, ev = .session k e ∧ S.sessions k = some s ∧
          (S.step ev).sessions = update S.sessions k (some (Bridge.step s e)) := by
  cases ev with
  | frontend k => exact .inr (.inl ⟨k, rfl, rfl⟩)
  | session k e =>
    cases hs : S.sessions k with
    | none =>
      refine .inl ?_
      rw [step, hs]
    | some s => exact .inr (.inr ⟨k, s, e, rfl, hs, by rw [step_session hs]; rfl⟩)
  | accept =>
    refine .inl ?_
    unfold step
    cases S.backlog <;> rfl
  | read quits =>
    refine .inl ?_
    unfold step
    cases S.clientFd with
    | none => rfl
    | some c => cases quits <;> rfl
  | print text =>
    refine .inl ?_
    unfold step
    cases S.clientFd <;> rfl
  | eof =>
    refine .inl ?_
    unfold step
    cases S.clientFd <;> rfl

theorem Step.session (h : S.Step ev T) (hs : S.sessions k = some s) :
    T.sessions k = some s ∨
      ∃ e, ev = .session k e ∧ Bridge.Enabled s e ∧ S.Admits k s e ∧ T.sessions k = some (Bridge.step s e) := by
  obtain ⟨hen, rfl⟩ := h
  rcases sessions_step S ev with hsame | ⟨j, rfl, hnew⟩ | ⟨j, s', e, rfl, hs', hnext⟩
  · exact .inl (hsame ▸ hs)
  · have hj : k ≠ j := by
      rintro rfl
      exact Option.some_ne_none _ (hs.symm.trans hen)
    exact .inl (by rw [hnew, update_of_ne hj, hs])
  · by_cases hj : k = j
    · subst hj
      obtain ⟨s'', hs'', hen', hadm⟩ := hen
      obtain rfl : s'' = s := Option.some.inj (hs''.symm.trans hs)
      obtain rfl : s' = s'' := Option.some.inj (hs'.symm.trans hs)
      exact .inr ⟨e, rfl, hen', hadm, by rw [hnext, update_self]⟩
    · exact .inl (by rw [hnext, update_of_ne hj, hs])

theorem Step.session_of (h : S.Step ev T) (ht : T.sessions k = some t) :
    S.sessions k = none ∧ t = init ∨
      ∃ s, S.sessions k = some s ∧ (t = s ∨ ∃ e, ev = .session k e ∧ Bridge.Step s e t) := by
  cases hs : S.sessions k with
  | some s =>
    rcases h.session hs with hsame | ⟨e, hev, hen, -, hnew⟩
    · exact .inr ⟨s, rfl, .inl (Option.some.inj (ht.symm.trans hsame))⟩
    · exact .inr ⟨s, rfl, .inr ⟨e, hev, hen, (Option.some.inj (ht.symm.trans hnew)).symm⟩⟩
  | none =>
    refine .inl ⟨rfl, ?_⟩
    obtain ⟨-, rfl⟩ := h
    rcases sessions_step S ev with hsame | ⟨j, rfl, hnew⟩ | ⟨j, s', e, rfl, hs', hnext⟩
    · rw [hsame, hs] at ht
      cases ht
    · rw [hnew] at ht
      by_cases hj : k = j
      · rw [hj, update_self] at ht
        exact (Option.some.inj ht).symm
      · rw [update_of_ne hj, hs] at ht
        cases ht
    · have hj : k ≠ j := by
        rintro rfl
        exact Option.some_ne_none _ (hs'.symm.trans hs)
      rw [hnext, update_of_ne hj, hs] at ht
      cases ht

end Steps

/-! ### The invariant -/

section Invariant

variable {S T : System} {ev : Event} {evs : List Event} {c : Conn} {k : ℕ} {s : State}

/-- All connections of the CLI, in the order in which they have been made. -/
def conns (S : System) : List Conn := S.closed ++ S.clientFd.toList ++ S.backlog

/-- The connection that an event makes. -/
def Event.connects : Event → List Conn
  | .session k (.connect i) => [(k, i)]
  | _ => []

/-- Connections are accepted in turn, and closed in turn. -/
theorem conns_step (h : S.Step ev T) : T.conns = S.conns ++ ev.connects := by
  obtain ⟨hen, rfl⟩ := h
  cases ev with
  | frontend k => exact (List.append_nil _).symm
  | session k e =>
    obtain ⟨s, hs, -⟩ := hen
    rw [step_session hs]
    cases e with
    | connect i => exact (List.append_assoc ..).symm
    | data i text => exact (List.append_nil _).symm
    | close i => exact (List.append_nil _).symm
    | timeout => exact (List.append_nil _).symm
    | message msg => exact (List.append_nil _).symm
    | wsClose => exact (List.append_nil _).symm
  | accept =>
    obtain ⟨hfd, hne⟩ := hen
    obtain ⟨c, backlog, hb⟩ := List.exists_cons_of_ne_nil hne
    rw [step_accept hb]
    simp [conns, Event.connects, hfd, hb]
  | read quits =>
    obtain ⟨c, hfd, -⟩ := hen
    rw [step, hfd]
    cases quits <;> simp [conns, Event.connects, closeClient, hfd]
  | print text =>
    obtain ⟨c, hfd⟩ := hen
    rw [step_print hfd]
    exact (List.append_nil _).symm
  | eof =>
    obtain ⟨c, hfd, -⟩ := hen
    rw [step_eof hfd]
    simp [conns, Event.connects, closeClient, hfd]

theorem connect_opened {i : ℕ} (h : s.sockets[i]? = some .opening) :
    (Bridge.step s (.connect i)).sockets[i]? = some .opened := by
  obtain ⟨hlt, -⟩ := List.getElem?_eq_some_iff.1 h
  rw [Bridge.step, onConnect, (wsSend_frame _ _).1]
  exact List.getElem?_set_self hlt

/-- **The invariant.**  The connections of the CLI are those of the sockets that have connected. -/
structure Inv (S : System) : Prop where
  sessions : ∀ k s, S.sessions k = some s → Bridge.Inv s
  connected : ∀ c ∈ S.conns, ∃ s y, S.sessions c.1 = some s ∧ s.sockets[c.2]? = some y ∧ y ≠ .opening
  opened : ∀ k s i, S.sessions k = some s → s.sockets[i]? = some .opened → (k, i) ∈ S.conns
  nodup : S.conns.Nodup

theorem inv_start : Inv start where
  sessions _ _ h := by cases h
  connected _ h := by cases h
  opened _ _ _ h := by cases h
  nodup := List.nodup_nil

theorem mem_connects {k i : ℕ} (h : (k, i) ∈ ev.connects) : ev = .session k (.connect i) := by
  cases ev with
  | session j e =>
    cases e with
    | connect m =>
      obtain ⟨rfl, rfl⟩ := Prod.mk.inj (List.mem_singleton.1 h)
      rfl
    | data m text => cases h
    | close m => cases h
    | timeout => cases h
    | message msg => cases h
    | wsClose => cases h
  | frontend j => cases h
  | accept => cases h
  | read quits => cases h
  | print text => cases h
  | eof => cases h

theorem opening_of_connects (h : S.Step ev T) (hc : c ∈ ev.connects) :
    ∃ s, S.sessions c.1 = some s ∧ s.sockets[c.2]? = some .opening := by
  obtain ⟨k, i⟩ := c
  obtain rfl := mem_connects hc
  obtain ⟨s, hs, hopening, -⟩ := h.1
  exact ⟨s, hs, hopening⟩

theorem Inv.of_step (hS : Inv S) (h : S.Step ev T) : Inv T where
  sessions k t ht := by
    rcases h.session_of ht with ⟨-, rfl⟩ | ⟨s, hs, rfl | ⟨e, -, hstep⟩⟩
    · exact ⟨0, _, shape_init⟩
    · exact hS.sessions k t hs
    · exact (hS.sessions k s hs).of_step hstep
  connected c hc := by
    rw [conns_step h] at hc
    rcases List.mem_append.1 hc with hc | hc
    · obtain ⟨s, y, hs, hy, hne⟩ := hS.connected c hc
      rcases h.session hs with hsame | ⟨e, -, -, -, hnew⟩
      · exact ⟨s, y, hsame, hy, hne⟩
      · obtain ⟨z, hz, hzne⟩ := connected_step e hy hne
        exact ⟨_, z, hnew, hz, hzne⟩
    · obtain ⟨k, i⟩ := c
      obtain rfl := mem_connects hc
      obtain ⟨s, hs, hopening, -⟩ := h.1
      refine ⟨_, .opened, ?_, connect_opened hopening, by simp⟩
      rw [← h.2, step_session hs]
      exact update_self ..
  opened k t i ht hopen := by
    rw [conns_step h]
    rcases h.session_of ht with ⟨-, rfl⟩ | ⟨s, hs, rfl | ⟨e, rfl, -, rfl⟩⟩
    · have hmem := List.mem_of_getElem? hopen
      simp [init, Bridge.connectDPDK] at hmem
    · exact List.mem_append_left _ (hS.opened k t i hs hopen)
    · rcases opened_step hopen with hold | rfl
      · exact List.mem_append_left _ (hS.opened k s i hs hold)
      · exact List.mem_append_right _ (List.mem_singleton_self _)
  nodup := by
    rw [conns_step h]
    refine List.nodup_append.2 ⟨hS.nodup, ?_, ?_⟩
    · cases ev with
      | session k e => cases e <;> simp [Event.connects]
      | frontend k => exact List.nodup_nil
      | accept => exact List.nodup_nil
      | read quits => exact List.nodup_nil
      | print text => exact List.nodup_nil
      | eof => exact List.nodup_nil
    · rintro c hc d hd rfl
      obtain ⟨s, hs, hopening⟩ := opening_of_connects h hd
      obtain ⟨s', y, hs', hy, hne⟩ := hS.connected c hc
      obtain rfl : s = s' := Option.some.inj (hs.symm.trans hs')
      exact hne (Option.some.inj (hy.symm.trans hopening))

theorem mem_conns_of_served (hfd : S.clientFd = some c) : c ∈ S.conns := by
  rw [conns, hfd]
  simp

theorem Inv.notMem_closed (hS : Inv S) (hfd : S.clientFd = some c) : c ∉ S.closed := by
  have hnodup := hS.nodup
  rw [conns, hfd] at hnodup
  intro hc
  have hdisj := (List.nodup_append.1 (List.nodup_append.1 hnodup).1).2.2
  exact hdisj c hc c (List.mem_singleton_self c) rfl

theorem run_inv (h : Run Step start evs S) : Inv S := h.invariant inv_start fun _ _ _ => Inv.of_step

end Invariant

end System

end DpdkBeginners.Bridge
