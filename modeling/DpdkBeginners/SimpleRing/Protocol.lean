import DpdkBeginners.SimpleRing.Defs
import Mathlib.Data.List.Range

/-!
# The producer reads a number that it no longer has

The memory that is allocated is what the threads hold and what is in the ring (`Inv`), and so all accesses but
one are safe.  The exception is the producer's: it prints the number after it has enqueued the pointer, and by then
the consumer may have freed it (`fault_iff`).  Up to there, the numbers that are enqueued arrive in
order, and what is left in the ring at the end is never freed (`accounting`).
-/

namespace DpdkBeginners.SimpleRing

open DpdkBeginners.Rte DpdkBeginners.Lib

variable {cap : ℕ} {s t : State} {ev : Event} {evs : List Event}

/-! ### The invariant -/

/-- The first numbers. -/
def numbers (n : ℕ) : List Number := (List.range n).map (BitVec.ofNat 64)

theorem numbers_succ (n : ℕ) : numbers (n + 1) = numbers n ++ [BitVec.ofNat 64 n] := by
  simp [numbers, List.range_succ]

theorem numbers_sublist_succ (n : ℕ) : (numbers n).Sublist (numbers (n + 1)) := by
  rw [numbers_succ]
  exact List.sublist_append_left ..

/-- The cell that the producer holds; the number in it is the last one. -/
def Producer.cells (counter : Number) : Producer → List (ℕ × Number)
  | .enqueue data => [(data, counter - 1)]
  | .free data => [(data, counter - 1)]
  | _ => []

/-- The pointer that the consumer holds. -/
def Consumer.held : Consumer → List ℕ
  | .print data => [data]
  | .free data => [data]
  | _ => []

/-- The consumer has not printed the number it holds. -/
def Consumer.unread (right : List (ℕ × Number)) : Consumer → List Number
  | .print _ => right.map Prod.snd
  | _ => []

/-- What has become of the pointer that the producer has enqueued: it is the last one in the ring, or the
consumer holds it, or it has been freed. -/
def Late (heap : Heap Number) (ring held : List ℕ) (data : ℕ) : Prop :=
  (∃ front, ring = front ++ [data]) ∨ (ring = [] ∧ held = [data]) ∨
    (ring = [] ∧ held = [] ∧ heap data = none)

/-- The invariant: `n` turns of the producer are over, and `right` is the cell of the consumer. -/
structure Inv (cap : ℕ) (s : State) (n : ℕ) (right : List (ℕ × Number)) : Prop where
  channel : Channel s.heap (s.producer.cells s.counter) s.ring right s.sent (s.consumed ++ s.consumer.unread right)
  held : right.map Prod.fst = s.consumer.held
  counter : s.counter = BitVec.ofNat 64 (n + (s.producer.cells s.counter).length)
  sent : s.sent.Sublist (numbers n)
  dropped : s.dropped.Sublist (numbers n)
  each : (s.sent ++ s.dropped).Perm (numbers n)
  room : s.ring.length ≤ cap
  late : ∀ data, s.producer = .print data → Late s.heap s.ring s.consumer.held data

theorem inv_init (cap : ℕ) : Inv cap init 0 [] :=
  ⟨Channel.empty, rfl, rfl, List.Sublist.refl _, List.Sublist.refl _, List.Perm.refl _, Nat.zero_le _,
    fun _ h => nomatch h⟩

/-! ### Steps -/

section Steps

variable {n : ℕ} {right : List (ℕ × Number)}

theorem pred_counter (n : ℕ) : BitVec.ofNat 64 (n + 1) - 1 = BitVec.ofNat 64 n := by
  rw [BitVec.ofNat_add]
  exact BitVec.add_sub_cancel ..

/-- A step of the producer, unless it is the print of a number that has been freed. -/
theorem Inv.stepProducer (hs : Inv cap s n right) {a : ℕ} (ha : s.producer = .malloc → s.heap a = none)
    (hprint : ∀ data, s.producer = .print data → s.heap data ≠ none) :
    ∃ t n', stepProducer cap s a = some t ∧ Inv cap t n' right := by
  obtain ⟨hchannel, hheld, hcounter, hsent, hdropped, heach, hroom, hlate⟩ := hs
  unfold SimpleRing.stepProducer
  cases hp : s.producer with
  | test =>
    simp only [hp, Producer.cells] at hchannel hcounter
    refine ⟨_, n, rfl, ?_⟩
    cases s.keepRunning with
    | true => exact ⟨hchannel, hheld, hcounter, hsent, hdropped, heach, hroom, nofun⟩
    | false => exact ⟨hchannel, hheld, hcounter, hsent, hdropped, heach, hroom, nofun⟩
  | malloc =>
    simp only [hp, Producer.cells] at hchannel hcounter
    refine ⟨_, n, rfl, ⟨?_, hheld, ?_, hsent, hdropped, heach, hroom, nofun⟩⟩
    · have hnew := hchannel.alloc (ha hp) s.counter
      simpa [Producer.cells, BitVec.add_sub_cancel] using hnew
    · rw [hcounter]
      simp [Producer.cells, BitVec.ofNat_add]
  | enqueue data =>
    simp only [hp, Producer.cells, List.length_singleton] at hchannel hcounter
    have hlast : s.counter - 1 = BitVec.ofNat 64 n := by rw [hcounter, pred_counter]
    simp only [rteRingEnqueue]
    by_cases hlt : s.ring.length < cap
    · rw [if_pos hlt]
      refine ⟨_, n + 1, rfl,
        ⟨hchannel.send, hheld, hcounter, ?_, hdropped.trans (numbers_sublist_succ n), ?_, ?_, ?_⟩⟩
      · rw [hlast, numbers_succ]
        exact hsent.append (List.Sublist.refl _)
      · rw [hlast, numbers_succ, List.append_assoc]
        refine (List.perm_append_comm.append_left _).trans ?_
        rw [← List.append_assoc]
        exact heach.append_right _
      · simp only [List.length_append, List.length_singleton]
        omega
      · intro data' hdata'
        obtain rfl := Producer.print.inj hdata'
        exact .inl ⟨s.ring, rfl⟩
    · rw [if_neg hlt]
      exact ⟨_, n, rfl, ⟨hchannel, hheld, hcounter, hsent, hdropped, heach, hroom, nofun⟩⟩
  | print data =>
    simp only [hp, Producer.cells] at hchannel hcounter
    obtain ⟨v, hv⟩ := Option.ne_none_iff_exists'.1 (hprint data hp)
    simp only [hv, Option.map_some]
    exact ⟨_, n, rfl, ⟨hchannel, hheld, hcounter, hsent, hdropped, heach, hroom, nofun⟩⟩
  | free data =>
    simp only [hp, Producer.cells, List.length_singleton] at hchannel hcounter
    have hlast : s.counter - 1 = BitVec.ofNat 64 n := by rw [hcounter, pred_counter]
    obtain ⟨heap', hfree, hchannel'⟩ := hchannel.discard
    simp only [hfree, Option.map_some]
    refine ⟨_, n + 1, rfl, ⟨hchannel', hheld, hcounter, hsent.trans (numbers_sublist_succ n), ?_, ?_,
      hroom, nofun⟩⟩
    · rw [hlast, numbers_succ]
      exact hdropped.append (List.Sublist.refl _)
    · rw [hlast, numbers_succ, ← List.append_assoc]
      exact heach.append_right _
  | returned =>
    refine ⟨s, n, rfl, ⟨hchannel, hheld, hcounter, hsent, hdropped, heach, hroom, hlate⟩⟩

theorem Inv.stepConsumer (hs : Inv cap s n right) :
    ∃ t right', stepConsumer s = some t ∧ Inv cap t n right' := by
  obtain ⟨hchannel, hheld, hcounter, hsent, hdropped, heach, hroom, hlate⟩ := hs
  unfold SimpleRing.stepConsumer
  cases hc : s.consumer with
  | test =>
    simp only [hc, Consumer.held, Consumer.unread] at hchannel hheld hlate
    refine ⟨_, right, rfl, ?_⟩
    cases s.keepRunning with
    | true => exact ⟨hchannel, hheld, hcounter, hsent, hdropped, heach, hroom, hlate⟩
    | false => exact ⟨hchannel, hheld, hcounter, hsent, hdropped, heach, hroom, hlate⟩
  | dequeue =>
    simp only [hc, Consumer.held, Consumer.unread, List.append_nil] at hchannel hheld hlate
    obtain rfl := List.map_eq_nil_iff.1 hheld
    cases hring : s.ring with
    | nil =>
      rw [hring] at hchannel hroom hlate
      refine ⟨_, [], rfl, ⟨?_, rfl, hcounter, hsent, hdropped, heach, hroom, hlate⟩⟩
      simpa [Consumer.unread] using hchannel
    | cons data ring =>
      rw [hring] at hchannel hroom hlate
      obtain ⟨v, hchannel'⟩ := hchannel.take
      refine ⟨_, [(data, v)], rfl, ⟨hchannel', rfl, hcounter, hsent, hdropped, heach, ?_, ?_⟩⟩
      · exact Nat.le_of_succ_le hroom
      · intro data' hdata'
        -- the pointer is the last one in the ring, and so perhaps the one that has just been taken
        rcases hlate data' hdata' with ⟨ring', hring'⟩ | ⟨hnil, -⟩ | ⟨hnil, -⟩
        · cases ring' with
          | nil =>
            obtain ⟨rfl, rfl⟩ := List.cons.inj hring'
            exact .inr (.inl ⟨rfl, rfl⟩)
          | cons b ring' => exact .inl ⟨ring', (List.cons.inj hring').2⟩
        · cases hnil
        · cases hnil
  | print data =>
    simp only [hc, Consumer.held, Consumer.unread] at hchannel hheld hlate
    obtain ⟨⟨b, v⟩, rfl, rfl⟩ := List.map_eq_singleton_iff.1 hheld
    simp only [hchannel.load_right, Option.map_some]
    refine ⟨_, [(b, v)], rfl, ⟨?_, rfl, hcounter, hsent, hdropped, heach, hroom, hlate⟩⟩
    simpa [Consumer.unread] using hchannel
  | free data =>
    simp only [hc, Consumer.held, Consumer.unread] at hchannel hheld hlate
    obtain ⟨⟨b, v⟩, rfl, rfl⟩ := List.map_eq_singleton_iff.1 hheld
    obtain ⟨heap', hfree, hchannel'⟩ := hchannel.release
    simp only [hfree, Option.map_some]
    refine ⟨_, [], rfl, ⟨hchannel', rfl, hcounter, hsent, hdropped, heach, hroom, ?_⟩⟩
    intro data' hdata'
    simp only at hdata'
    rcases hlate data' hdata' with hlast | ⟨hnil, hheld'⟩ | ⟨-, hheld', -⟩
    · exact .inl hlast
    · -- the consumer has freed the number before the producer prints it
      refine .inr (.inr ⟨hnil, rfl, ?_⟩)
      obtain rfl := (List.cons.inj hheld').1
      simp only [hdata', hnil, Producer.cells] at hchannel'
      by_contra hne
      cases hchannel'.mem_queue_iff.1 hne
    · cases hheld'
  | returned =>
    exact ⟨s, right, rfl, ⟨hchannel, hheld, hcounter, hsent, hdropped, heach, hroom, hlate⟩⟩

/-- Whether the number that the producer is about to print has been freed. -/
theorem Inv.late_iff (hs : Inv cap s n right) {data : ℕ} (hp : s.producer = .print data) :
    s.heap data = none ↔ s.ring = [] ∧ s.consumer.held = [] := by
  constructor
  · intro hnone
    rcases hs.late data hp with ⟨front, hring⟩ | ⟨-, hheld⟩ | ⟨hnil, hheld, -⟩
    · refine absurd hnone (hs.channel.ne_none_of_mem ?_)
      rw [hring]
      simp
    · rw [← hs.held] at hheld
      obtain ⟨⟨b, v⟩, rfl, rfl⟩ := List.map_eq_singleton_iff.1 hheld
      rw [hs.channel.load_right] at hnone
      cases hnone
    · exact ⟨hnil, hheld⟩
  · rintro ⟨hring, hheld⟩
    rcases hs.late data hp with ⟨front, hlast⟩ | ⟨-, hheld'⟩ | ⟨-, -, hnone⟩
    · rw [hring] at hlast
      exact absurd hlast (by simp)
    · rw [hheld] at hheld'
      cases hheld'
    · exact hnone

end Steps

theorem run_inv (h : Run (Step cap) init evs s) : ∃ n right, Inv cap s n right := by
  refine h.invariant (I := fun s => ∃ n right, Inv cap s n right) ⟨0, [], inv_init cap⟩ ?_
  rintro a ev b ⟨n, right, ha⟩ ⟨henabled, hstep⟩
  cases ev with
  | producer c =>
    have hprint : ∀ data, a.producer = .print data → a.heap data ≠ none := by
      intro data hp hnone
      simp [step, stepProducer, hp, hnone] at hstep
    obtain ⟨t, n', ht, hinv⟩ := ha.stepProducer henabled hprint
    obtain rfl : t = b := Option.some.inj (ht.symm.trans hstep)
    exact ⟨n', right, hinv⟩
  | consumer =>
    obtain ⟨t, right', ht, hinv⟩ := ha.stepConsumer
    obtain rfl : t = b := Option.some.inj (ht.symm.trans hstep)
    exact ⟨n, right', hinv⟩
  | signal =>
    obtain rfl := Option.some.inj hstep
    obtain ⟨h₁, h₂, h₃, h₄, h₅, h₆, h₇, h₈⟩ := ha
    exact ⟨n, right, ⟨h₁, h₂, h₃, h₄, h₅, h₆, h₇, h₈⟩⟩

/-! ### Runs -/

/-- **The only unsafe access**, in every run, on a ring of any size, whenever the signal comes: a step fails if and only
if it is the producer's print of a number it has enqueued, and by then the consumer has emptied the ring and
freed what it had taken.  The consumer never fails, and the producer frees no number twice. -/
theorem fault_iff (h : Run (Step cap) init evs s) (hev : Enabled s ev) :
    step cap s ev = none ↔ ∃ a data, ev = .producer a ∧ s.producer = .print data ∧
      s.ring = [] ∧ s.consumer.held = [] := by
  obtain ⟨n, right, hs⟩ := run_inv h
  cases ev with
  | producer a =>
    constructor
    · intro hnone
      by_cases hprint : ∃ data, s.producer = .print data ∧ s.heap data = none
      · obtain ⟨data, hp, hdata⟩ := hprint
        exact ⟨a, data, rfl, hp, (hs.late_iff hp).1 hdata⟩
      · obtain ⟨t, n', ht, -⟩ := hs.stepProducer hev fun data hp hdata => hprint ⟨data, hp, hdata⟩
        cases ht.symm.trans hnone
    · rintro ⟨-, data, -, hp, hfreed⟩
      simp [step, stepProducer, hp, (hs.late_iff hp).2 hfreed]
  | consumer =>
    obtain ⟨t, right', ht, -⟩ := hs.stepConsumer
    constructor
    · intro hnone
      cases ht.symm.trans hnone
    · rintro ⟨a, -, hev', -⟩
      cases hev'
  | signal =>
    constructor
    · intro hnone
      cases hnone
    · rintro ⟨a, -, hev', -⟩
      cases hev'

/-- The consumer takes the first number, prints it and frees it before the producer has printed it. -/
def raceEvents : List Event :=
  [.producer 0, .producer 7, .producer 0, .consumer, .consumer, .consumer, .consumer]

/-- The state after them. -/
def afterRace : State :=
  ⟨Function.update (Heap.empty.alloc 7 0) 7 none, [], true, 1, .print 7, .test, [0], [], [0]⟩

theorem run_afterRace : Run (Step mainCapacity) init raceEvents afterRace := by
  refine Run.cons_iff.2 ⟨_, ⟨nofun, rfl⟩, Run.cons_iff.2 ⟨_, ⟨fun _ => rfl, rfl⟩,
    Run.cons_iff.2 ⟨_, ⟨nofun, rfl⟩, Run.cons_iff.2 ⟨_, ⟨trivial, rfl⟩,
    Run.cons_iff.2 ⟨_, ⟨trivial, rfl⟩, Run.cons_iff.2 ⟨_, ⟨trivial, rfl⟩,
    Run.single_iff.2 ⟨trivial, rfl⟩⟩⟩⟩⟩⟩⟩

/-- The producer then reads memory that has been freed. -/
theorem fault_afterRace : step mainCapacity afterRace (.producer 0) = none := by
  have hev : Enabled afterRace (.producer 0) := nofun
  exact (fault_iff run_afterRace hev).2 ⟨0, 7, rfl, rfl, rfl, rfl⟩

/-- **What becomes of the numbers**, in every run without a fault: the numbers that are enqueued and the ones that are
dropped are, each in increasing order, the numbers of the turns that are over, each once, and the counter is the number
of those turns, or one more while the producer holds a number; the consumer prints the ones that are enqueued, in
order, up to those that are in the ring and the one it holds.  When both threads have returned, the memory that is
still allocated is what is in the ring. -/
theorem accounting (h : Run (Step cap) init evs s) :
    (∃ n, s.counter = BitVec.ofNat 64 (n + (s.producer.cells s.counter).length) ∧
      s.sent.Sublist (numbers n) ∧ s.dropped.Sublist (numbers n) ∧ (s.sent ++ s.dropped).Perm (numbers n)) ∧
    s.consumed <+: s.sent ∧
    (s.sent.length = s.consumed.length + s.ring.length ∨
      s.sent.length = s.consumed.length + 1 + s.ring.length) ∧
    s.ring.length ≤ cap ∧ s.ring.Nodup ∧
    (s.producer = .returned → s.consumer = .returned → ∀ a, s.heap a ≠ none ↔ a ∈ s.ring) := by
  obtain ⟨n, right, hs⟩ := run_inv h
  refine ⟨⟨n, hs.counter, hs.sent, hs.dropped, hs.each⟩, ?_, ?_, hs.room, hs.channel.nodup, ?_⟩
  · exact (List.prefix_append ..).trans hs.channel.taken_prefix
  · have hlen := hs.channel.length_eq
    rw [List.length_append] at hlen
    have hheld := congrArg List.length hs.held
    rw [List.length_map] at hheld
    cases hc : s.consumer with
    | print data =>
      rw [hc] at hlen hheld
      simp only [Consumer.unread, Consumer.held, List.length_map, List.length_singleton] at hlen hheld
      omega
    | _ =>
      rw [hc] at hlen
      simp only [Consumer.unread, List.length_nil] at hlen
      omega
  · intro hp hc a
    have hchannel := hs.channel
    have hheld := hs.held
    simp only [hp, hc, Producer.cells, Consumer.held] at hchannel hheld
    obtain rfl := List.map_eq_nil_iff.1 hheld
    exact hchannel.mem_queue_iff

theorem accounting_afterRace : afterRace.consumed <+: afterRace.sent ∧ afterRace.ring.Nodup ∧
    ∃ n, afterRace.counter = BitVec.ofNat 64 n ∧ (afterRace.sent ++ afterRace.dropped).Perm (numbers n) := by
  obtain ⟨⟨n, hcounter, -, -, heach⟩, hconsumed, -, -, hnodup, -⟩ := accounting run_afterRace
  exact ⟨hconsumed, hnodup, n, hcounter, heach⟩

/-! ### The signal -/

/-- How many steps the producer takes at most, once `keep_running` has been cleared. -/
def Producer.rank : Producer → ℕ
  | .malloc => 4
  | .enqueue _ => 3
  | .print _ => 2
  | .free _ => 2
  | .test => 1
  | .returned => 0

/-- How many steps the consumer takes at most. -/
def Consumer.rank : Consumer → ℕ
  | .dequeue => 4
  | .print _ => 3
  | .free _ => 2
  | .test => 1
  | .returned => 0

/-- The thread that takes the step has returned. -/
def Event.Idle (s : State) : Event → Prop
  | .producer _ => s.producer = .returned
  | .consumer => s.consumer = .returned
  | .signal => True

theorem rank_stepProducer (hs : s.keepRunning = false) {a : ℕ} (hstep : stepProducer cap s a = some t) :
    t.keepRunning = false ∧ t.consumer = s.consumer ∧
      (t = s ∧ s.producer = .returned ∨ t.producer.rank < s.producer.rank) := by
  unfold stepProducer at hstep
  cases hp : s.producer with
  | test =>
    rw [hp] at hstep
    obtain rfl := Option.some.inj hstep
    exact ⟨hs, rfl, .inr (by simp [hs, Producer.rank])⟩
  | malloc =>
    rw [hp] at hstep
    obtain rfl := Option.some.inj hstep
    exact ⟨hs, rfl, .inr (by simp [Producer.rank])⟩
  | enqueue data =>
    simp only [hp] at hstep
    cases hring : rteRingEnqueue cap s.ring data with
    | some ring =>
      rw [hring] at hstep
      obtain rfl := Option.some.inj hstep
      exact ⟨hs, rfl, .inr (by simp [Producer.rank])⟩
    | none =>
      rw [hring] at hstep
      obtain rfl := Option.some.inj hstep
      exact ⟨hs, rfl, .inr (by simp [Producer.rank])⟩
  | print data =>
    rw [hp] at hstep
    obtain ⟨v, -, rfl⟩ := Option.map_eq_some_iff.1 hstep
    exact ⟨hs, rfl, .inr (by simp [Producer.rank])⟩
  | free data =>
    rw [hp] at hstep
    obtain ⟨heap, -, rfl⟩ := Option.map_eq_some_iff.1 hstep
    exact ⟨hs, rfl, .inr (by simp [Producer.rank])⟩
  | returned =>
    rw [hp] at hstep
    obtain rfl := Option.some.inj hstep
    exact ⟨hs, rfl, .inl ⟨rfl, rfl⟩⟩

theorem rank_stepConsumer (hs : s.keepRunning = false) (hstep : stepConsumer s = some t) :
    t.keepRunning = false ∧ t.producer = s.producer ∧
      (t = s ∧ s.consumer = .returned ∨ t.consumer.rank < s.consumer.rank) := by
  unfold stepConsumer at hstep
  cases hc : s.consumer with
  | test =>
    rw [hc] at hstep
    obtain rfl := Option.some.inj hstep
    exact ⟨hs, rfl, .inr (by simp [hs, Consumer.rank])⟩
  | dequeue =>
    simp only [hc] at hstep
    cases hring : rteRingDequeue s.ring with
    | some p =>
      rw [hring] at hstep
      obtain rfl := Option.some.inj hstep
      exact ⟨hs, rfl, .inr (by simp [Consumer.rank])⟩
    | none =>
      rw [hring] at hstep
      obtain rfl := Option.some.inj hstep
      exact ⟨hs, rfl, .inr (by simp [Consumer.rank])⟩
  | print data =>
    rw [hc] at hstep
    obtain ⟨v, -, rfl⟩ := Option.map_eq_some_iff.1 hstep
    exact ⟨hs, rfl, .inr (by simp [Consumer.rank])⟩
  | free data =>
    rw [hc] at hstep
    obtain ⟨heap, -, rfl⟩ := Option.map_eq_some_iff.1 hstep
    exact ⟨hs, rfl, .inr (by simp [Consumer.rank])⟩
  | returned =>
    rw [hc] at hstep
    obtain rfl := Option.some.inj hstep
    exact ⟨hs, rfl, .inl ⟨rfl, rfl⟩⟩

/-- A step of a thread that is to stop brings its end closer, unless it has returned. -/
theorem rank_step (hs : s.keepRunning = false) (hstep : step cap s ev = some t) :
    t.keepRunning = false ∧
      ((t = s ∧ ev.Idle s) ∨ t.producer.rank + t.consumer.rank < s.producer.rank + s.consumer.rank) := by
  cases ev with
  | producer a =>
    obtain ⟨hk, hconsumer, hidle | hlt⟩ := rank_stepProducer hs hstep
    · exact ⟨hk, .inl hidle⟩
    · exact ⟨hk, .inr (hconsumer ▸ Nat.add_lt_add_right hlt _)⟩
  | consumer =>
    obtain ⟨hk, hproducer, hidle | hlt⟩ := rank_stepConsumer hs hstep
    · exact ⟨hk, .inl hidle⟩
    · exact ⟨hk, .inr (hproducer ▸ Nat.add_lt_add_left hlt _)⟩
  | signal =>
    obtain rfl := Option.some.inj hstep
    refine ⟨rfl, .inl ⟨?_, trivial⟩⟩
    rw [← hs]

/-- **The signal stops both threads.**  After it a run has no more than eight steps that change the state, under
any schedule; and when no step changes it, both threads have returned, or the producer is about to read a number
that has been freed. -/
theorem stops_of_signal {evs₀ : List Event} (h₀ : Run (Step cap) init evs₀ s) (hs : s.keepRunning = false)
    (h : Run (Step cap) s evs t) :
    (∃ evs', evs'.Sublist evs ∧ Run (fun a ev b => Step cap a ev b ∧ b ≠ a) s evs' t ∧
      evs'.length ≤ 8) ∧
    ((∀ ev u, Step cap t ev u → u = t) → t.consumer = .returned ∧
      (t.producer = .returned ∨ ∃ data, t.producer = .print data ∧ t.heap data = none)) := by
  refine ⟨?_, fun hstuck => ?_⟩
  · obtain ⟨evs', hsub, hrun, hlen⟩ := h.destutter (fun s => s.producer.rank + s.consumer.rank) hs
      fun a ev b ha hab => ⟨(rank_step ha hab.2).1, (rank_step ha hab.2).2.imp_left And.left⟩
    have hp : s.producer.rank ≤ 4 := by cases s.producer <;> simp [Producer.rank]
    have hc : s.consumer.rank ≤ 4 := by cases s.consumer <;> simp [Consumer.rank]
    exact ⟨evs', hsub, hrun, by omega⟩
  · obtain ⟨n, right, hinv⟩ := run_inv (h₀.append h)
    have hfalse : t.keepRunning = false := h.invariant hs fun a ev b ha hab => (rank_step ha hab.2).1
    have hidle : ∀ {ev : Event} {u : State}, Enabled t ev → step cap t ev = some u → ev.Idle t := by
      intro ev u hev hstep
      obtain rfl := hstuck ev u ⟨hev, hstep⟩
      rcases (rank_step hfalse hstep).2 with ⟨-, h⟩ | h
      · exact h
      · exact absurd h (lt_irrefl _)
    obtain ⟨c, hc⟩ := hinv.channel.exists_eq_none
    refine ⟨?_, ?_⟩
    · obtain ⟨u, right', hstep, -⟩ := hinv.stepConsumer
      exact @hidle .consumer u trivial hstep
    · by_cases hprint : ∃ data, t.producer = .print data ∧ t.heap data = none
      · exact .inr hprint
      · obtain ⟨u, n', hstep, -⟩ := hinv.stepProducer (fun _ => hc) fun data hp hd => hprint ⟨data, hp, hd⟩
        exact .inl (@hidle (.producer c) u (fun _ => hc) hstep)

/-- The signal comes in the middle of a turn of each thread: the producer has a number to enqueue, and the consumer is
about to look into the ring. -/
def midTurn : State :=
  ⟨Heap.empty.alloc 7 0, [], false, 1, .enqueue 7, .dequeue, [], [], []⟩

theorem run_midTurn : Run (Step mainCapacity) init [.producer 0, .producer 7, .consumer, .signal] midTurn :=
  Run.cons_iff.2 ⟨_, ⟨nofun, rfl⟩, Run.cons_iff.2 ⟨_, ⟨fun _ => rfl, rfl⟩,
    Run.cons_iff.2 ⟨_, ⟨trivial, rfl⟩, Run.single_iff.2 ⟨trivial, rfl⟩⟩⟩⟩

/-- The rest of the two turns, in which the number is enqueued and left in the ring. -/
def lastEvents : List Event := [.consumer, .producer 0, .producer 0, .consumer, .producer 0]

theorem stops_of_signal_midTurn : ∃ evs, evs.Sublist lastEvents ∧ evs.length ≤ 8 ∧
    Run (fun a ev b => Step mainCapacity a ev b ∧ b ≠ a) midTurn evs
      { midTurn with ring := [7], producer := .returned, consumer := .returned, sent := [0] } := by
  have hreturn : Run (Step mainCapacity) midTurn lastEvents
      { midTurn with ring := [7], producer := .returned, consumer := .returned, sent := [0] } :=
    Run.cons_iff.2 ⟨_, ⟨trivial, rfl⟩, Run.cons_iff.2 ⟨_, ⟨nofun, rfl⟩, Run.cons_iff.2 ⟨_, ⟨nofun, rfl⟩,
      Run.cons_iff.2 ⟨_, ⟨trivial, rfl⟩, Run.single_iff.2 ⟨nofun, rfl⟩⟩⟩⟩⟩
  obtain ⟨⟨evs', hsub, hrun, hlen⟩, -⟩ := stops_of_signal run_midTurn rfl hreturn
  exact ⟨evs', hsub, hlen, hrun⟩

end DpdkBeginners.SimpleRing
