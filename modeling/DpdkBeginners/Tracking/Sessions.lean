import DpdkBeginners.Tracking.Defs
import Mathlib.Data.List.Count

/-!
# What is taken down since the last reset

A session is what happens between two resets of the timer.  In `version2` the table has exactly the keys of the session
whose add has succeeded, and each of them is announced as new once (`version2_table`); in `sample` the same holds
of the whole run, because the table is never emptied (`sample_table`).  The clock of a session runs from its first
burst, and a session ends at the first empty poll five seconds after its last burst (`session_clock`).
-/

namespace DpdkBeginners.Tracking

open DpdkBeginners.Rte DpdkBeginners.Lib

variable {ι κ ν : Type*} [DecidableEq κ] {P : Program κ ν} {hz : U64} {s s₀ t : State κ ν} {ev : Event ι κ}
  {evs pre post : List (Event ι κ)} {k : κ}

/-! ### The loop over the keys -/

/-- The key of a line that announces it as new. -/
def Line.announced : Line κ → Option κ
  | .new _ k => some k
  | _ => none

section Keys

variable {table : RteHash κ ν} {xs ys : List (Side × κ × Bool)}

theorem hashKeys_cons (table : RteHash κ ν) (x : Side × κ × Bool) (xs : List (Side × κ × Bool)) :
    hashKeys P table (x :: xs) =
      ((hashKeys P (hashKey P table x).1 xs).1,
        (hashKey P table x).2 :: (hashKeys P (hashKey P table x).1 xs).2) := rfl

theorem hashIps_cons (table : RteHash κ ν) (b : RxMbuf ι) (bufs : List (RxMbuf ι)) :
    hashIps P table (b :: bufs) =
      ((hashIps P (hashKeys P table (attempts P b)).1 bufs).1,
        (hashKeys P table (attempts P b)).2 ++ (hashIps P (hashKeys P table (attempts P b)).1 bufs).2) := rfl

theorem hashKeys_append :
    hashKeys P table (xs ++ ys) =
      ((hashKeys P (hashKeys P table xs).1 ys).1,
        (hashKeys P table xs).2 ++ (hashKeys P (hashKeys P table xs).1 ys).2) := by
  induction xs generalizing table with
  | nil => rfl
  | cons x xs ih =>
    rw [List.cons_append, hashKeys_cons, hashKeys_cons, ih, List.cons_append]

theorem hashIps_eq (table : RteHash κ ν) (bufs : List (RxMbuf ι)) :
    hashIps P table bufs = hashKeys P table (bufs.flatMap (attempts P)) := by
  induction bufs generalizing table with
  | nil => rfl
  | cons b bufs ih => rw [hashIps_cons, ih, List.flatMap_cons, hashKeys_append]

theorem hashKey_table (table : RteHash κ ν) (x : Side × κ × Bool) (k : κ) :
    (hashKey P table x).1 k = if table k = none ∧ x.2 = (k, true) then some (P.data k) else table k := by
  obtain ⟨side, k', ok⟩ := x
  unfold hashKey
  cases hv : table k' with
  | some v =>
    simp only [rteHashLookupData, hv]
    by_cases hk : k' = k
    · simp [← hk, hv]
    · simp [hk]
  | none =>
    simp only [rteHashLookupData, hv]
    cases ok with
    | false => simp [rteHashAddKeyData]
    | true =>
      by_cases hk : k' = k
      · simp [rteHashAddKeyData, ← hk, hv]
      · simp [rteHashAddKeyData, hk, Function.update_of_ne (Ne.symm hk)]

omit [DecidableEq κ] in
theorem mem_keys_cons {x : Side × κ × Bool} {y : κ × Bool} :
    y ∈ (x :: xs).map Prod.snd ↔ x.2 = y ∨ y ∈ xs.map Prod.snd := by
  rw [List.map_cons, List.mem_cons, eq_comm]

theorem hashKeys_table (table : RteHash κ ν) (xs : List (Side × κ × Bool)) (k : κ) :
    (hashKeys P table xs).1 k =
      if table k = none ∧ (k, true) ∈ xs.map Prod.snd then some (P.data k) else table k := by
  induction xs generalizing table with
  | nil => simp [hashKeys]
  | cons x xs ih =>
    rw [hashKeys_cons, ih, hashKey_table]
    simp only [mem_keys_cons]
    by_cases hnone : table k = none
    · by_cases hx : x.2 = (k, true)
      · simp only [hnone, hx, true_and, true_or, if_true, reduceCtorEq, false_and, if_false]
      · simp only [hnone, hx, and_false, false_or, if_false]
    · simp only [hnone, false_and, if_false]

theorem hashKey_announced (table : RteHash κ ν) (x : Side × κ × Bool) (k : κ) :
    (hashKey P table x).2.announced = some k ↔ table k = none ∧ x.2.1 = k := by
  obtain ⟨side, k', ok⟩ := x
  unfold hashKey
  cases hv : table k' with
  | none =>
    simp only [rteHashLookupData, hv, Line.announced, Option.some.injEq]
    constructor
    · rintro rfl
      exact ⟨hv, rfl⟩
    · exact fun h => h.2
  | some v =>
    simp only [rteHashLookupData, hv, Line.announced, false_iff, reduceCtorEq]
    rintro ⟨hnone, rfl⟩
    rw [hv] at hnone
    cases hnone

theorem count_announced_cons (table : RteHash κ ν) (x : Side × κ × Bool) (xs : List (Side × κ × Bool)) (k : κ) :
    ((hashKeys P table (x :: xs)).2.filterMap Line.announced).count k =
      (if table k = none ∧ x.2.1 = k then 1 else 0) +
        ((hashKeys P (hashKey P table x).1 xs).2.filterMap Line.announced).count k := by
  have hline := hashKey_announced (P := P) table x k
  rw [hashKeys_cons, List.filterMap_cons]
  by_cases h : table k = none ∧ x.2.1 = k
  · rw [if_pos h, hline.2 h, List.count_cons_self, Nat.add_comm]
  · rw [if_neg h, Nat.zero_add]
    cases hann : (hashKey P table x).2.announced with
    | none => rfl
    | some k' =>
      refine List.count_cons_of_ne ?_
      rintro rfl
      exact h (hline.1 hann)

/-- **A key is announced** when it is not in the table, once if its add succeeds. -/
theorem hashKeys_announced (table : RteHash κ ν) (hok : ∀ ok, (k, ok) ∈ xs.map Prod.snd → ok = true) :
    ((hashKeys P table xs).2.filterMap Line.announced).count k =
      if table k = none ∧ ∃ ok, (k, ok) ∈ xs.map Prod.snd then 1 else 0 := by
  induction xs generalizing table with
  | nil => simp [hashKeys]
  | cons x xs ih =>
    rw [count_announced_cons, ih _ fun ok hm => hok ok (List.mem_cons_of_mem _ hm), hashKey_table]
    obtain ⟨side, k', ok⟩ := x
    simp only [mem_keys_cons] at hok ⊢
    by_cases hk : k' = k
    · subst hk
      -- the first add of the key is the last time it is announced
      obtain rfl := hok ok (.inl rfl)
      by_cases hnone : table k' = none
      · simp [hnone]
      · simp [hnone]
    · have hne : ∀ ok', (k', ok) ≠ (k, ok') := fun ok' heq => hk (congrArg Prod.fst heq)
      simp only [hk, hne, and_false, false_or, if_false, Nat.zero_add]

end Keys

/-! ### Events -/

/-- The keys of the packets of an event, each with the answer to its add. -/
def Event.attempts (P : Program κ ν) (ev : Event ι κ) : List (κ × Bool) :=
  match ev.poll with
  | .burst bufs _ _ _ => (bufs.flatMap (Tracking.attempts P)).map Prod.snd
  | .empty _ _ => []

/-- The keys that an event announces as new. -/
def Event.announced (ev : Event ι κ) : List κ := ev.lines.filterMap Line.announced

/-- The clock readings of a burst, when the timer may start and after `hash_ips`. -/
def Event.reading (ev : Event ι κ) : Option (U64 × U64) :=
  match ev.poll with
  | .burst _ first last _ => some (first, last)
  | .empty _ _ => none

/-- The timer is reset. -/
def Event.Resets (ev : Event ι κ) : Prop := .timerReset ∈ ev.lines

theorem hashKeys_lines (table : RteHash κ ν) (xs : List (Side × κ × Bool)) :
    ∀ l ∈ (hashKeys P table xs).2, ∃ side k, l = .new side k ∨ l = .known side k := by
  induction xs generalizing table with
  | nil => exact nofun
  | cons x xs ih =>
    rw [hashKeys_cons, List.forall_mem_cons]
    refine ⟨?_, ih _⟩
    unfold hashKey
    split
    · exact ⟨_, _, .inl rfl⟩
    · exact ⟨_, _, .inr rfl⟩

/-- What a step does: a burst is hashed, a session is closed, or nothing happens. -/
inductive Effect (P : Program κ ν) (hz : U64) (s : State κ ν) : Event ι κ → State κ ν → Prop
  | burst {bufs : List (RxMbuf ι)} {first last after : U64} {tx : TxQueue ι} {lines : List (Line κ)}
      {ops : List (MbufOp ι)} (startTsc : U64) (h : startTsc = if s.started then s.startTsc else first)
      (hlines : lines.filterMap Line.announced =
        (hashKeys P s.table (bufs.flatMap (attempts P))).2.filterMap Line.announced)
      (hreset : .timerReset ∉ lines) (hdump : ∀ keys, .dump keys ∉ lines)
      (helapsed : .received bufs.length ((after - startTsc) / hz) ∈ lines) :
      Effect P hz s ⟨.burst bufs first last after, tx, lines, ops⟩
        ⟨true, startTsc, last, (hashKeys P s.table (bufs.flatMap (attempts P))).1⟩
  | close {now : U64} {order : List κ} {tx : TxQueue ι} {ops : List (MbufOp ι)} (hs : s.started = true)
      (hidle : 5 ≤ (now - s.lastRxTsc) / hz) :
      Effect P hz s ⟨.empty now order, tx, [.timerReset, hashIpsDump P s.table order], ops⟩
        ⟨false, 0, 0, if P.resets then rteHashEmpty else s.table⟩
  | idle {now : U64} {order : List κ} {tx : TxQueue ι} {ops : List (MbufOp ι)}
      (hs : s.started = true → ¬ 5 ≤ (now - s.lastRxTsc) / hz) :
      Effect P hz s ⟨.empty now order, tx, [], ops⟩ s

theorem iteration_burst (tx : TxQueue ι) (s : State κ ν) (bufs : List (RxMbuf ι)) (first last after : U64) :
    iteration P hz tx s (.burst bufs first last after) =
      (⟨true, if s.started then s.startTsc else first, last,
          (hashKeys P s.table (bufs.flatMap (attempts P))).1⟩,
        (if s.started then [] else [.timerStarted]) ++ (hashKeys P s.table (bufs.flatMap (attempts P))).2 ++
          [.received bufs.length ((after - if s.started then s.startTsc else first) / hz)],
        sendOrFree tx (bufs.map Prod.fst)) := by
  rw [← hashIps_eq]
  obtain ⟨started, startTsc, lastRxTsc, table⟩ := s
  cases started <;> rfl

theorem Step.effect (h : Step P hz s ev t) : Effect P hz s ev t := by
  obtain ⟨poll, tx, lines, ops⟩ := ev
  obtain ⟨-, hit⟩ := h
  change iteration P hz tx s poll = (t, lines, ops) at hit
  cases poll with
  | burst bufs first last after =>
    have hlines := hashKeys_lines (P := P) s.table (bufs.flatMap (attempts P))
    rw [iteration_burst, Prod.mk.injEq, Prod.mk.injEq] at hit
    obtain ⟨rfl, rfl, rfl⟩ := hit
    have hother : ∀ l : Line κ, (∀ side k, l ≠ .new side k ∧ l ≠ .known side k) →
        l ∉ (hashKeys P s.table (bufs.flatMap (attempts P))).2 := by
      intro l hl hmem
      obtain ⟨side, k, heq | heq⟩ := hlines l hmem
      · exact (hl side k).1 heq
      · exact (hl side k).2 heq
    have hreset := hother .timerReset fun _ _ => ⟨nofun, nofun⟩
    have hdump := fun keys => hother (.dump keys) fun _ _ => ⟨nofun, nofun⟩
    refine .burst _ rfl ?_ ?_ ?_ ?_
    · cases s.started <;> simp [List.filterMap_cons, Line.announced]
    · cases s.started <;> simp [hreset]
    · cases s.started <;> simp [hdump]
    · simp
  | empty now order =>
    simp only [iteration] at hit
    by_cases hs : s.started = true
    · rw [if_pos hs] at hit
      by_cases hidle : 5 ≤ (now - s.lastRxTsc) / hz
      · rw [if_pos hidle] at hit
        cases hit
        exact .close hs hidle
      · rw [if_neg hidle] at hit
        cases hit
        exact .idle fun _ => hidle
    · rw [if_neg hs] at hit
      cases hit
      exact .idle fun h => absurd h hs

theorem Effect.not_resets (he : Effect P hz s ev t) (hread : ev.reading ≠ none) : ¬ ev.Resets := by
  cases he with
  | burst _ _ _ hreset => exact hreset
  | close _ _ => exact absurd rfl hread
  | idle _ => exact absurd rfl hread

/-! ### Sessions -/

/-- What a table that was empty has after the events `evs`, and what they have announced. -/
structure Session (P : Program κ ν) (evs : List (Event ι κ)) (s : State κ ν) : Prop where
  data : ∀ k v, s.table k = some v → v = P.data k
  table : ∀ k, s.table k ≠ none ↔ (k, true) ∈ evs.flatMap (Event.attempts P)
  announced : ∀ k, (∀ ok, (k, ok) ∈ evs.flatMap (Event.attempts P) → ok = true) →
    (evs.flatMap Event.announced).count k = if ∃ ok, (k, ok) ∈ evs.flatMap (Event.attempts P) then 1 else 0

theorem Session.hash {xs : List (Side × κ × Bool)} (h : Session P evs s) (hatt : ev.attempts P = xs.map Prod.snd)
    (hann : ev.announced = (hashKeys P s.table xs).2.filterMap Line.announced)
    (ht : t.table = (hashKeys P s.table xs).1) : Session P (evs ++ [ev]) t := by
  have hmem : ∀ y, y ∈ (evs ++ [ev]).flatMap (Event.attempts P) ↔
      y ∈ evs.flatMap (Event.attempts P) ∨ y ∈ xs.map Prod.snd := by
    intro y
    rw [List.flatMap_append, List.mem_append, List.flatMap_singleton, hatt]
  refine ⟨fun k v hv => ?_, fun k => ?_, fun k hok => ?_⟩
  · rw [ht, hashKeys_table] at hv
    split_ifs at hv with hnew
    · exact (Option.some.inj hv).symm
    · exact h.data k v hv
  · rw [hmem, ← h.table, ht, hashKeys_table]
    by_cases hnone : s.table k = none
    · simp [hnone]
    · simp [hnone]
  · have hold := h.announced k fun ok hm => hok ok ((hmem _).2 (.inl hm))
    have hnew := hashKeys_announced (P := P) s.table fun ok hm => hok ok ((hmem (k, ok)).2 (.inr hm))
    -- a key of the session is in the table, as its add has succeeded
    have hnone : s.table k = none ↔ ¬ ∃ ok, (k, ok) ∈ evs.flatMap (Event.attempts P) := by
      rw [← not_iff_not, not_not]
      refine (h.table k).trans ⟨fun hm => ⟨true, hm⟩, ?_⟩
      rintro ⟨ok, hm⟩
      obtain rfl := hok ok ((hmem _).2 (.inl hm))
      exact hm
    rw [List.flatMap_append, List.flatMap_singleton, List.count_append, hold, hann, hnew]
    simp only [hmem, exists_or, hnone]
    by_cases h₁ : ∃ ok, (k, ok) ∈ evs.flatMap (Event.attempts P)
    · simp only [h₁, if_true, not_true_eq_false, false_and, if_false, true_or]
    · simp only [h₁, if_false, not_false_eq_true, true_and, false_or, Nat.zero_add]

theorem Session.quiet (h : Session P evs s) (hatt : ev.attempts P = []) (hann : ev.announced = [])
    (ht : t.table = s.table) : Session P (evs ++ [ev]) t := by
  have hnone : ev.attempts P = ([] : List (Side × κ × Bool)).map Prod.snd := hatt
  exact h.hash hnone hann ht

theorem Session.step (h : Session P evs s) (he : Effect P hz s ev t) (hkeep : P.resets = true → ¬ ev.Resets) :
    Session P (evs ++ [ev]) t := by
  cases he with
  | burst startTsc _ hlines => exact h.hash rfl hlines rfl
  | close hs hidle =>
    refine h.quiet rfl rfl ?_
    rw [if_neg fun hr => hkeep hr List.mem_cons_self]
  | idle hs => exact h.quiet rfl rfl rfl

theorem session_of_run (h : Run (Step P hz) s₀ evs s) (h₀ : s₀.table = rteHashEmpty)
    (hkeep : P.resets = true → ∀ ev ∈ evs, ¬ ev.Resets) : Session P evs s := by
  induction h with
  | refl => exact ⟨fun k v hv => by simp [h₀] at hv, fun k => by simp [h₀], fun k _ => by simp⟩
  | @snoc a b evs ev _ hst ih =>
    refine (ih fun hr ev' hev' => hkeep hr ev' (List.mem_append_left _ hev')).step hst.effect ?_
    exact fun hr => hkeep hr ev (List.mem_append_right _ (List.mem_singleton_self ev))

/-- The events `post` are those since the last reset of the timer, or since the start. -/
def SinceReset (pre post : List (Event ι κ)) : Prop :=
  (pre = [] ∨ ∃ ev, pre.getLast? = some ev ∧ ev.Resets) ∧ ∀ ev ∈ post, ¬ ev.Resets

theorem fresh_of_reset (h : Run (Step P hz) init pre s)
    (hpre : pre = [] ∨ ∃ ev, pre.getLast? = some ev ∧ ev.Resets) :
    s.started = false ∧ (P.resets = true → s.table = rteHashEmpty) := by
  cases h with
  | refl => exact ⟨rfl, fun _ => rfl⟩
  | @snoc a b evs ev _ hst =>
    rcases hpre with hnil | ⟨ev', hlast, hreset⟩
    · simp at hnil
    · obtain rfl : ev = ev' := by simpa using hlast
      cases hst.effect with
      | burst _ _ _ hno => exact absurd hreset hno
      | close _ _ => exact ⟨rfl, fun hr => if_pos hr⟩
      | idle _ => exact absurd hreset List.not_mem_nil

theorem Session.dump (h : Session P evs s) (hst : Step P hz s ev t) {keys : List κ}
    (hkeys : .dump keys ∈ ev.lines) :
    keys.Nodup ∧ ∀ k, k ∈ keys ↔ (k, true) ∈ evs.flatMap (Event.attempts P) := by
  have hen := hst.1
  cases hst.effect with
  | burst _ _ _ _ hdump => exact absurd hkeys (hdump keys)
  | idle _ => exact absurd hkeys List.not_mem_nil
  | @close now order tx ops _ _ =>
    obtain ⟨hnodup, horder⟩ := hen
    have hall : ∀ k ∈ order, (s.table k).map (P.dumped k) = some k := by
      intro k hk
      obtain ⟨v, hv⟩ := Option.ne_none_iff_exists'.1 ((horder k).1 hk)
      rw [hv, h.data k v hv, Option.map_some, P.dumped_data]
    have heq : keys = order := by
      have hline : Line.dump keys = hashIpsDump P s.table order := by simpa using hkeys
      rw [hashIpsDump, List.filterMap_congr hall, List.filterMap_some] at hline
      exact Line.dump.inj hline
    subst heq
    exact ⟨hnodup, fun k => (horder k).trans (h.table k)⟩

/-- An iteration with what it prints. -/
def Poll.event (P : Program κ ν) (hz : U64) (tx : TxQueue ι) (s : State κ ν) (poll : Poll ι κ) : Event ι κ :=
  ⟨poll, tx, (iteration P hz tx s poll).2.1, (iteration P hz tx s poll).2.2⟩

theorem step_event (hz : U64) (tx : TxQueue ι) {poll : Poll ι κ} (hen : Enabled s poll) :
    Step P hz s (poll.event P hz tx s) (iteration P hz tx s poll).1 := ⟨hen, rfl⟩

/-- A queue that takes all. -/
def takeAll : TxQueue ℕ := ⟨List.length, fun _ => Nat.le_refl _⟩

/-- A UDP packet from a host to a name server. -/
def dnsQuery : Mbuf := l4Frame ipprotoUdp (netAddr 192 168 1 50) (netAddr 8 8 8 8) (rteCpuToBe16 5000) (rteCpuToBe16 53)

/-- Two copies of it in one burst; `added` says which adds succeed. -/
def dnsBurst (κ : Type*) (added : Side → Bool) (now : U64) : Poll ℕ κ :=
  .burst [(0, dnsQuery, added), (1, dnsQuery, added)] now now now

section DnsQuery

variable {a b : κ} {tx : TxQueue ℕ} {added : Side → Bool} {now : U64}

/-- The keys of the burst, with the answers. -/
def burstKeys (a b : κ) (added : Side → Bool) : List (κ × Bool) :=
  [(a, added .src), (b, added .dst), (a, added .src), (b, added .dst)]

omit [DecidableEq κ] in
theorem attempts_dnsBurst (hkeys : P.keys dnsQuery = [(.src, a), (.dst, b)]) {lines : List (Line κ)}
    {ops : List (MbufOp ℕ)} : Event.attempts P ⟨dnsBurst κ added now, tx, lines, ops⟩ = burstKeys a b added := by
  simp [dnsBurst, Event.attempts, attempts, hkeys, burstKeys]

theorem table_dnsBurst (hkeys : P.keys dnsQuery = [(.src, a), (.dst, b)]) :
    (iteration P hz tx s (dnsBurst κ added now)).1.table k ≠ none ↔
      s.table k ≠ none ∨ (k, true) ∈ burstKeys a b added := by
  have htable : (iteration P hz tx s (dnsBurst κ added now)).1.table =
      (hashKeys P s.table ([(0, dnsQuery, added), (1, dnsQuery, added)].flatMap (attempts P))).1 := by
    rw [dnsBurst, iteration_burst]
  have hatt : ([(0, dnsQuery, added), (1, dnsQuery, added)].flatMap (attempts P)).map Prod.snd =
      burstKeys a b added := @attempts_dnsBurst _ _ P _ _ takeAll added now hkeys [] []
  rw [htable, hashKeys_table, hatt]
  by_cases hnone : s.table k = none
  · simp [hnone]
  · simp [hnone]

/-- A session of one burst, which the first empty poll after five seconds closes. -/
theorem session_dnsBurst (hkeys : P.keys dnsQuery = [(.src, a), (.dst, b)]) (s : State κ ν) (added : Side → Bool)
    (now : U64) (order : List κ) (hnodup : order.Nodup)
    (horder : ∀ k, k ∈ order ↔ s.table k ≠ none ∨ (k, true) ∈ burstKeys a b added) :
    ∃ (e e' : Event ℕ κ) (t u : State κ ν) (keys : List κ),
      (Step P 1000000000 s e t ∧ e.attempts P = burstKeys a b added ∧ ¬ e.Resets ∧
        e.reading = some (now, now)) ∧
      (Step P 1000000000 t e' u ∧ e'.attempts P = [] ∧ e'.Resets ∧ e'.poll = .empty (now + 5000000000) order ∧
        .dump keys ∈ e'.lines) ∧
      ∀ k, u.table k ≠ none → k ∈ order := by
  have hst := step_event (P := P) 1000000000 takeAll
    (show Enabled s (dnsBurst κ added now) from List.cons_ne_nil _ _)
  have hno := hst.effect.not_resets (Option.some_ne_none _)
  set t := (iteration P 1000000000 takeAll s (dnsBurst κ added now)).1 with ht
  have htable : ∀ k, t.table k ≠ none ↔ k ∈ order := fun k => (table_dnsBurst hkeys).trans (horder k).symm
  have hstarted : t.started = true := by rw [ht, dnsBurst, iteration_burst]
  have hlast : t.lastRxTsc = now := by rw [ht, dnsBurst, iteration_burst]
  have hidle : 5 ≤ (now + 5000000000 - t.lastRxTsc) / (1000000000 : U64) := by
    rw [hlast, BitVec.add_comm, BitVec.add_sub_cancel]
    decide
  have hclose : Step P 1000000000 t
      ⟨.empty (now + 5000000000) order, takeAll, [.timerReset, hashIpsDump P t.table order], []⟩
      ⟨false, 0, 0, if P.resets then rteHashEmpty else t.table⟩ := by
    refine ⟨⟨hnodup, fun k => (htable k).symm⟩, ?_⟩
    rw [iteration, if_pos hstarted, if_pos hidle]
  refine ⟨_, _, t, _, _, ⟨hst, attempts_dnsBurst hkeys, hno, rfl⟩,
    ⟨hclose, rfl, List.mem_cons_self, rfl, List.mem_cons_of_mem _ (List.mem_singleton_self _)⟩, fun k hk => ?_⟩
  by_cases hr : P.resets = true
  · simp [hr] at hk
  · rw [if_neg hr] at hk
    exact (htable k).1 hk

/-- Two such sessions; in the first one the server cannot be added. -/
theorem run_dnsQuery (hkeys : P.keys dnsQuery = [(.src, a), (.dst, b)]) (hab : a ≠ b) :
    ∃ (e₁ e₂ e₃ e₄ : Event ℕ κ) (s₁ s₂ s₃ s₄ : State κ ν) (keys₂ keys₄ : List κ),
      (Run (Step P 1000000000) init [e₁] s₁ ∧ e₁.attempts P = burstKeys a b (· = .src) ∧ ¬ e₁.Resets) ∧
      (Step P 1000000000 s₁ e₂ s₂ ∧ e₂.attempts P = [] ∧ e₂.Resets ∧ .dump keys₂ ∈ e₂.lines) ∧
      (Step P 1000000000 s₂ e₃ s₃ ∧ e₃.attempts P = burstKeys a b (fun _ => true) ∧ ¬ e₃.Resets ∧
        e₃.reading = some (6000000000, 6000000000)) ∧
      Step P 1000000000 s₃ e₄ s₄ ∧ e₄.poll = .empty 11000000000 [a, b] ∧ .dump keys₄ ∈ e₄.lines := by
  obtain ⟨e₁, e₂, s₁, s₂, keys₂, ⟨h₁, hatt₁, hno₁, -⟩, ⟨h₂, hatt₂, hreset, -, hkeys₂⟩, htable⟩ :=
    session_dnsBurst hkeys init (· = .src) 10 [a] (List.nodup_singleton a) fun k => by
      simp [init, burstKeys]
  obtain ⟨e₃, e₄, s₃, s₄, keys₄, ⟨h₃, hatt₃, hno₃, hread⟩, ⟨h₄, -, -, hpoll, hkeys₄⟩, -⟩ :=
    session_dnsBurst hkeys s₂ (fun _ => true) 6000000000 [a, b] (by simp [hab]) fun k => by
      have hold := htable k
      simp only [List.mem_singleton] at hold
      simp only [burstKeys, List.mem_cons, Prod.mk.injEq, and_true, List.not_mem_nil, or_false]
      tauto
  exact ⟨e₁, e₂, e₃, e₄, s₁, s₂, s₃, s₄, keys₂, keys₄, ⟨Run.single_iff.2 h₁, hatt₁, hno₁⟩,
    ⟨h₂, hatt₂, hreset, hkeys₂⟩, ⟨h₃, hatt₃, hno₃, hread⟩, h₄, hpoll, hkeys₄⟩

end DnsQuery

section Version2

variable {s t : State IpPortKey U64} {pre post : List (Event ι IpPortKey)}

/-- **The table of `version2`.**  Since the last reset, a pair of an address and a port is in the table if and only if
an add of it has succeeded; if all of its adds succeed, it is announced as new once when a packet has it, and not at
all otherwise; and the next dump prints the table, each pair once. -/
theorem version2_table (h : Run (Step version2 hz) init (pre ++ post) s) (hpost : SinceReset pre post)
    (k : IpPortKey) :
    (s.table k ≠ none ↔ (k, true) ∈ post.flatMap (Event.attempts version2)) ∧
    ((∀ ok, (k, ok) ∈ post.flatMap (Event.attempts version2) → ok = true) →
      (post.flatMap Event.announced).count k =
        if ∃ ok, (k, ok) ∈ post.flatMap (Event.attempts version2) then 1 else 0) ∧
    ∀ (ev : Event ι IpPortKey) t keys, Step version2 hz s ev t → .dump keys ∈ ev.lines →
      keys.Nodup ∧ (k ∈ keys ↔ (k, true) ∈ post.flatMap (Event.attempts version2)) := by
  obtain ⟨s₀, hpre, hrun⟩ := Run.append_iff.1 h
  have hs₀ := (fresh_of_reset hpre hpost.1).2 rfl
  have hs : Session version2 post s := session_of_run hrun hs₀ fun _ => hpost.2
  refine ⟨hs.table k, hs.announced k, fun ev t keys hst hkeys => ?_⟩
  obtain ⟨hnodup, hmem⟩ := hs.dump hst hkeys
  exact ⟨hnodup, hmem k⟩

theorem keysVersion2_dnsQuery : keysVersion2 dnsQuery =
    [(.src, ⟨netAddr 192 168 1 50, rteCpuToBe16 5000⟩), (.dst, ⟨netAddr 8 8 8 8, rteCpuToBe16 53⟩)] := by
  have hdr : dnsQuery.header = _ := l4Frame_header ..
  have hether : dnsQuery.IsIpv4 := congrArg Header.etherType hdr
  have hproto : dnsQuery.nextProtoId = ipprotoUdp := congrArg Header.proto hdr
  have hsrc : dnsQuery.srcAddr = netAddr 192 168 1 50 := congrArg Header.srcAddr hdr
  have hdst : dnsQuery.dstAddr = netAddr 8 8 8 8 := congrArg Header.dstAddr hdr
  have hsport : dnsQuery.srcPort = rteCpuToBe16 5000 := congrArg Header.srcPort hdr
  have hdport : dnsQuery.dstPort = rteCpuToBe16 53 := congrArg Header.dstPort hdr
  unfold keysVersion2
  rw [if_neg (not_not_intro hether), hproto, if_neg (by decide), if_pos rfl, hsrc, hdst, hsport, hdport]

/-- The addresses of the query with its ports. -/
def client : IpPortKey := ⟨netAddr 192 168 1 50, rteCpuToBe16 5000⟩
def server : IpPortKey := ⟨netAddr 8 8 8 8, rteCpuToBe16 53⟩

/-- The server is in the table, and in the dump, only after it has been added in the second session. -/
theorem version2_table_dnsQuery : ∃ (e₁ e₂ e₃ : Event ℕ IpPortKey) (s : State IpPortKey U64)
    (keys₂ keys₄ : List IpPortKey), Run (Step version2 1000000000) init [e₁, e₂, e₃] s ∧
    .dump keys₂ ∈ e₂.lines ∧ client ∈ keys₂ ∧ server ∉ keys₂ ∧
    s.table server ≠ none ∧ e₃.announced.count server = 1 ∧ keys₄.Nodup ∧ server ∈ keys₄ := by
  obtain ⟨e₁, e₂, e₃, e₄, s₁, s₂, s₃, s₄, keys₂, keys₄, ⟨h₁, hatt₁, hno₁⟩, ⟨h₂, -, hreset, hkeys₂⟩,
    ⟨h₃, hatt₃, hno₃, -⟩, h₄, -, hkeys₄⟩ :=
    @run_dnsQuery _ _ _ version2 client server keysVersion2_dnsQuery (by decide)
  have hfirst : SinceReset [] [e₁] := ⟨.inl rfl, List.forall_mem_singleton.2 hno₁⟩
  have hsecond : SinceReset [e₁, e₂] [e₃] := ⟨.inr ⟨e₂, rfl, hreset⟩, List.forall_mem_singleton.2 hno₃⟩
  have hrun : Run (Step version2 1000000000) init [e₁, e₂, e₃] s₃ := (h₁.snoc h₂).snoc h₃
  have hdump : ∀ k, k ∈ keys₂ ↔ (k, true) ∈ burstKeys client server (· = .src) := fun k => by
    rw [← hatt₁, ← List.flatMap_singleton (Event.attempts version2)]
    exact ((version2_table h₁ hfirst k).2.2 e₂ s₂ keys₂ h₂ hkeys₂).2
  obtain ⟨htable, hannounced, hdumped⟩ := version2_table hrun hsecond server
  rw [List.flatMap_singleton, hatt₃] at htable hannounced
  obtain ⟨hnodup, hmem⟩ := hdumped e₄ s₄ keys₄ h₄ hkeys₄
  rw [List.flatMap_singleton, hatt₃] at hmem
  refine ⟨e₁, e₂, e₃, s₃, keys₂, keys₄, hrun, hkeys₂, (hdump _).2 (by decide), fun h => ?_, htable.2 (by decide), ?_,
    hnodup, hmem.2 (by decide)⟩
  · exact absurd ((hdump _).1 h) (by decide)
  · rw [List.flatMap_singleton] at hannounced
    exact (hannounced (by simp [burstKeys])).trans (if_pos ⟨true, by decide⟩)

end Version2

section Sample

variable {s t : State U32 U64} {evs : List (Event ι U32)}

/-- **The table of `sample`** is never emptied: in a whole run, an address whose adds all succeed is announced as new
once at most, and each dump prints all addresses that have been added since the start. -/
theorem sample_table (h : Run (Step sample hz) init evs s) (k : U32) :
    (s.table k ≠ none ↔ (k, true) ∈ evs.flatMap (Event.attempts sample)) ∧
    ((∀ ok, (k, ok) ∈ evs.flatMap (Event.attempts sample) → ok = true) →
      (evs.flatMap Event.announced).count k =
        if ∃ ok, (k, ok) ∈ evs.flatMap (Event.attempts sample) then 1 else 0) ∧
    ∀ (ev : Event ι U32) t keys, Step sample hz s ev t → .dump keys ∈ ev.lines →
      keys.Nodup ∧ (k ∈ keys ↔ (k, true) ∈ evs.flatMap (Event.attempts sample)) := by
  have hs : Session sample evs s := session_of_run h rfl nofun
  refine ⟨hs.table k, hs.announced k, fun ev t keys hst hkeys => ?_⟩
  obtain ⟨hnodup, hmem⟩ := hs.dump hst hkeys
  exact ⟨hnodup, hmem k⟩

theorem keysSample_dnsQuery : keysSample dnsQuery = [(.src, netAddr 192 168 1 50), (.dst, netAddr 8 8 8 8)] := by
  have hdr : dnsQuery.header = _ := l4Frame_header ..
  have hether : dnsQuery.IsIpv4 := congrArg Header.etherType hdr
  have hsrc : dnsQuery.srcAddr = netAddr 192 168 1 50 := congrArg Header.srcAddr hdr
  have hdst : dnsQuery.dstAddr = netAddr 8 8 8 8 := congrArg Header.dstAddr hdr
  unfold keysSample
  rw [if_neg (not_not_intro hether), hsrc, hdst]

/-- The client is announced in the first session only, and is in both dumps; the server only in the second. -/
theorem sample_table_dnsQuery : ∃ (e₁ e₂ e₃ : Event ℕ U32) (s : State U32 U64) (keys₂ keys₄ : List U32),
    Run (Step sample 1000000000) init [e₁, e₂, e₃] s ∧
    .dump keys₂ ∈ e₂.lines ∧ netAddr 192 168 1 50 ∈ keys₂ ∧ netAddr 8 8 8 8 ∉ keys₂ ∧
    s.table (netAddr 8 8 8 8) ≠ none ∧ ([e₁, e₂, e₃].flatMap Event.announced).count (netAddr 192 168 1 50) = 1 ∧
    keys₄.Nodup ∧ netAddr 8 8 8 8 ∈ keys₄ := by
  obtain ⟨e₁, e₂, e₃, e₄, s₁, s₂, s₃, s₄, keys₂, keys₄, ⟨h₁, hatt₁, -⟩, ⟨h₂, hatt₂, -, hkeys₂⟩,
    ⟨h₃, hatt₃, -, -⟩, h₄, -, hkeys₄⟩ := @run_dnsQuery _ _ _ sample _ _ keysSample_dnsQuery (by decide)
  have hrun : Run (Step sample 1000000000) init [e₁, e₂, e₃] s₃ := (h₁.snoc h₂).snoc h₃
  have hatt : [e₁, e₂, e₃].flatMap (Event.attempts sample) =
      burstKeys (netAddr 192 168 1 50) (netAddr 8 8 8 8) (· = .src) ++
        burstKeys (netAddr 192 168 1 50) (netAddr 8 8 8 8) fun _ => true := by
    simp only [List.flatMap_cons, List.flatMap_nil, hatt₁, hatt₂, hatt₃, List.nil_append, List.append_nil]
  have hdump : ∀ k, k ∈ keys₂ ↔ (k, true) ∈ burstKeys (netAddr 192 168 1 50) (netAddr 8 8 8 8) (· = .src) :=
    fun k => by
      rw [← hatt₁, ← List.flatMap_singleton (Event.attempts sample)]
      exact ((sample_table h₁ k).2.2 e₂ s₂ keys₂ h₂ hkeys₂).2
  have htable := (sample_table hrun (netAddr 8 8 8 8)).1
  have hannounced := (sample_table hrun (netAddr 192 168 1 50)).2.1
  obtain ⟨hnodup, hmem⟩ := (sample_table hrun (netAddr 8 8 8 8)).2.2 e₄ s₄ keys₄ h₄ hkeys₄
  rw [hatt] at htable hannounced hmem
  refine ⟨e₁, e₂, e₃, s₃, keys₂, keys₄, hrun, hkeys₂, (hdump _).2 (by decide), fun h => ?_, htable.2 (by decide), ?_,
    hnodup, hmem.2 (by decide)⟩
  · exact absurd ((hdump _).1 h) (by decide)
  · have hok : ∀ ok, (netAddr 192 168 1 50, ok) ∈ burstKeys (netAddr 192 168 1 50) (netAddr 8 8 8 8) (· = .src) ++
        burstKeys (netAddr 192 168 1 50) (netAddr 8 8 8 8) (fun _ => true) → ok = true := by
      decide
    exact (hannounced hok).trans (if_pos ⟨true, by decide⟩)

end Sample

/-! ### The clock -/

/-- The timer runs from the first burst of the session, and the idle time from the last one. -/
def Clock (evs : List (Event ι κ)) (s : State κ ν) : Prop :=
  (evs.filterMap Event.reading = [] ∧ s.started = false) ∨
    ∃ x y, (evs.filterMap Event.reading).head? = some x ∧ (evs.filterMap Event.reading).getLast? = some y ∧
      s.started = true ∧ s.startTsc = x.1 ∧ s.lastRxTsc = y.2

theorem Clock.step (h : Clock evs s) (he : Effect P hz s ev t) (hkeep : ¬ ev.Resets) : Clock (evs ++ [ev]) t := by
  cases he with
  | @burst bufs first last after tx lines ops startTsc hstart _ _ _ _ =>
    have hread : ∀ evs : List (Event ι κ),
        (evs ++ [(⟨.burst bufs first last after, tx, lines, ops⟩ : Event ι κ)]).filterMap Event.reading =
          evs.filterMap Event.reading ++ [(first, last)] := fun evs => List.filterMap_append
    rcases h with ⟨hnil, hs⟩ | ⟨x, y, hx, hy, hs, hfirst, -⟩
    · refine .inr ⟨(first, last), (first, last), ?_, ?_, rfl, ?_, rfl⟩
      · rw [hread, hnil]
        rfl
      · rw [hread, hnil]
        rfl
      · rw [hstart, hs]
        rfl
    · refine .inr ⟨x, (first, last), ?_, ?_, rfl, ?_, rfl⟩
      · rw [hread, List.head?_append, hx]
        rfl
      · rw [hread, List.getLast?_concat]
      · rw [hstart, if_pos hs, hfirst]
  | close _ _ => exact absurd List.mem_cons_self hkeep
  | @idle now order tx ops _ =>
    have hread : (evs ++ [(⟨.empty now order, tx, [], ops⟩ : Event ι κ)]).filterMap Event.reading =
        evs.filterMap Event.reading := by
      rw [List.filterMap_append]
      exact List.append_nil _
    unfold Clock
    rw [hread]
    exact h

theorem clock_of_run (h : Run (Step P hz) s₀ evs s) (h₀ : s₀.started = false) (hkeep : ∀ ev ∈ evs, ¬ ev.Resets) :
    Clock evs s := by
  induction h with
  | refl => exact .inl ⟨rfl, h₀⟩
  | @snoc a b evs ev _ hst ih =>
    refine (ih fun ev' hev' => hkeep ev' (List.mem_append_left _ hev')).step hst.effect ?_
    exact hkeep ev (List.mem_append_right _ (List.mem_singleton_self ev))

/-- **The clock.**  In a session, an empty poll resets the timer if and only if there has been a burst and the last one
was five seconds before; and the time that is printed with a burst is counted from the first one. -/
theorem session_clock (h : Run (Step P hz) init (pre ++ post) s) (hpost : SinceReset pre post)
    (hst : Step P hz s ev t) :
    (∀ now order, ev.poll = .empty now order →
      (ev.Resets ↔ ∃ x, (post.filterMap Event.reading).getLast? = some x ∧ 5 ≤ (now - x.2) / hz)) ∧
    ∀ bufs first last after, ev.poll = .burst bufs first last after →
      .received bufs.length ((after -
        ((post.filterMap Event.reading).head?.map Prod.fst).getD first) / hz) ∈ ev.lines := by
  obtain ⟨s₀, hpre, hrun⟩ := Run.append_iff.1 h
  have hclock : Clock post s := clock_of_run hrun (fresh_of_reset hpre hpost.1).1 hpost.2
  cases hst.effect with
  | @burst bufs first last after tx lines ops startTsc hstart _ _ _ helapsed =>
    refine ⟨nofun, fun bufs' first' last' after' heq => ?_⟩
    obtain ⟨rfl, rfl, rfl, rfl⟩ := Poll.burst.inj heq
    rcases hclock with ⟨hnil, hs⟩ | ⟨x, y, hx, -, hs, hfirst, -⟩
    · rw [hs, if_neg Bool.false_ne_true] at hstart
      rw [hstart] at helapsed
      rw [hnil]
      exact helapsed
    · rw [hs] at hstart
      rw [hx]
      rw [hstart, if_pos rfl, hfirst] at helapsed
      exact helapsed
  | @close now order tx ops hs hidle =>
    refine ⟨fun now' order' heq => ?_, nofun⟩
    obtain ⟨rfl, rfl⟩ := Poll.empty.inj heq
    rcases hclock with ⟨-, hs'⟩ | ⟨x, y, -, hy, -, -, hlast⟩
    · rw [hs] at hs'
      cases hs'
    · rw [hlast] at hidle
      exact ⟨fun _ => ⟨y, hy, hidle⟩, fun _ => List.mem_cons_self⟩
  | @idle now order tx ops hs =>
    refine ⟨fun now' order' heq => ?_, nofun⟩
    obtain ⟨rfl, rfl⟩ := Poll.empty.inj heq
    refine ⟨fun hno => absurd hno List.not_mem_nil, ?_⟩
    rintro ⟨x, hx, hidle⟩
    rcases hclock with ⟨hnil, -⟩ | ⟨-, y, -, hy, hs', -, hlast⟩
    · rw [hnil] at hx
      cases hx
    · obtain rfl := Option.some.inj (hx.symm.trans hy)
      rw [← hlast] at hidle
      exact absurd hidle (hs hs')

/-- The second session starts at `6000000000`, and no packet comes for five seconds. -/
theorem session_clock_dnsQuery : ∃ (ev : Event ℕ U32) (order : List U32),
    ev.poll = .empty 11000000000 order ∧ ev.Resets := by
  obtain ⟨e₁, e₂, e₃, e₄, s₁, s₂, s₃, s₄, -, -, ⟨h₁, -⟩, ⟨h₂, -, hreset, -⟩, ⟨h₃, -, hno₃, hread⟩, h₄, hpoll, -⟩ :=
    @run_dnsQuery _ _ _ sample _ _ keysSample_dnsQuery (by decide)
  have hsince : SinceReset [e₁, e₂] [e₃] := ⟨.inr ⟨e₂, rfl, hreset⟩, List.forall_mem_singleton.2 hno₃⟩
  have hrun : Run (Step sample 1000000000) init ([e₁, e₂] ++ [e₃]) s₃ := (h₁.snoc h₂).snoc h₃
  refine ⟨e₄, _, hpoll, ((session_clock hrun hsince h₄).1 _ _ hpoll).2 ⟨(6000000000, 6000000000), ?_, by decide⟩⟩
  rw [List.filterMap_cons_some hread]
  rfl

end DpdkBeginners.Tracking
