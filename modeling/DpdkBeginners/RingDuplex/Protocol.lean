import DpdkBeginners.RingDuplex.Defs

/-!
# One message, and one cell of memory

`Phase` lists the situations a run can be in: at most one message exists, in the hands of a process or in a
ring, and it is the only cell that is allocated.  Each step of each process leads from one of them to one of
them, without a fault, and lowers the rank of the state unless it only waits (`good_step`).  Hence no process
touches memory that has been freed (`no_fault`), and every run ends with all memory freed (`runs_end`).
-/

namespace DpdkBeginners.RingDuplex

open DpdkBeginners.Rte DpdkBeginners.Lib

variable {cap : ℕ} {requests : List CInt} {s t : State} {evs : List (Proc × ℕ)}

/-! ### The situations of a run -/

/-- The replies to the given requests. -/
def tens (vs : List CInt) : List CInt := vs.map (· * 10)

/-- The secondary holds no message. -/
def Secondary.Idle : Secondary → Prop
  | .lookup => True
  | .lookup2 => True
  | .polling => True
  | _ => False

/-- The situations: the cells, the rings, where the processes are, and the values received. -/
inductive Phase (requests : List CInt) : List (ℕ × CInt) → Option (List ℕ) → Option (List ℕ) →
    Primary → Secondary → List CInt → List CInt → Prop
  | create : Phase requests [] none none .create .lookup [] []
  | create2 {sec : Secondary} : sec = .lookup ∨ sec = .lookup2 →
      Phase requests [] (some []) none .create2 sec [] []
  | turn {i : ℕ} {sec : Secondary} : i ≤ requests.length → sec.Idle →
      Phase requests [] (some []) (some []) (.turn i) sec (tens (requests.take i)) (requests.take i)
  /-- The primary is about to send a request. -/
  | sending {i a : ℕ} {v : CInt} {sec : Secondary} : requests[i]? = some v → sec.Idle →
      Phase requests [(a, v)] (some []) (some []) (.sending i a) sec (tens (requests.take i))
        (requests.take i)
  /-- The request is in the first ring. -/
  | sent {i a : ℕ} {v : CInt} {sec : Secondary} : requests[i]? = some v → sec.Idle →
      Phase requests [(a, v)] (some [a]) (some []) (.waiting i) sec (tens (requests.take i))
        (requests.take i)
  | testing {i a : ℕ} {v : CInt} : requests[i]? = some v →
      Phase requests [(a, v)] (some []) (some []) (.waiting i) (.testing a) (tens (requests.take i))
        (requests.take i)
  | printing {i a : ℕ} {v : CInt} : requests[i]? = some v →
      Phase requests [(a, v)] (some []) (some []) (.waiting i) (.printing a) (tens (requests.take i))
        (requests.take i)
  | computing {i a : ℕ} {v : CInt} : requests[i]? = some v →
      Phase requests [(a, v)] (some []) (some []) (.waiting i) (.computing a) (tens (requests.take i))
        (requests.take (i + 1))
  | freeing {i a : ℕ} {v : CInt} : requests[i]? = some v →
      Phase requests [(a, v)] (some []) (some []) (.waiting i) (.freeing a (v * 10))
        (tens (requests.take i)) (requests.take (i + 1))
  /-- The request has been freed, and there is no reply yet. -/
  | answering {i : ℕ} {v : CInt} : requests[i]? = some v →
      Phase requests [] (some []) (some []) (.waiting i) (.answering (v * 10)) (tens (requests.take i))
        (requests.take (i + 1))
  | replying {i a : ℕ} {v : CInt} : requests[i]? = some v →
      Phase requests [(a, v * 10)] (some []) (some []) (.waiting i) (.sending a)
        (tens (requests.take i)) (requests.take (i + 1))
  /-- The reply is in the second ring. -/
  | replied {i a : ℕ} {v : CInt} : requests[i]? = some v →
      Phase requests [(a, v * 10)] (some []) (some [a]) (.waiting i) .polling (tens (requests.take i))
        (requests.take (i + 1))
  | reading {i a : ℕ} {v : CInt} : requests[i]? = some v →
      Phase requests [(a, v * 10)] (some []) (some []) (.reading i a) .polling
        (tens (requests.take i)) (requests.take (i + 1))
  | freeingReply {i a : ℕ} {v : CInt} : requests[i]? = some v →
      Phase requests [(a, v * 10)] (some []) (some []) (.freeing i a) .polling
        (tens (requests.take (i + 1))) (requests.take (i + 1))
  /-- The primary is about to send the last message. -/
  | stopping {a : ℕ} {sec : Secondary} : sec.Idle →
      Phase requests [(a, -1)] (some []) (some []) (.stopping a) sec (tens requests) requests
  | stopped {a : ℕ} {sec : Secondary} : sec.Idle →
      Phase requests [(a, -1)] (some [a]) (some []) .done sec (tens requests) requests
  | testingStop {a : ℕ} : Phase requests [(a, -1)] (some []) (some []) .done (.testing a)
      (tens requests) requests
  | exiting {a : ℕ} : Phase requests [(a, -1)] (some []) (some []) .done (.exiting a) (tens requests)
      requests
  | ended : Phase requests [] (some []) (some []) .done .done (tens requests) requests

/-- The invariant: the run is in one of the situations, and its cells are the ones that are allocated. -/
def Good (requests : List CInt) (s : State) : Prop :=
  ∃ cells, Owns s.heap cells ∧
    Phase requests cells s.ring s.ring2 s.primary s.secondary s.received s.served

theorem good_init (requests : List CInt) : Good requests init := ⟨[], Owns.empty, .create⟩

/-! ### The rank -/

/-- What is left of the primary's program, when it has `n` requests to send. -/
def Primary.rank (n : ℕ) : Primary → ℕ
  | .create => 60 * (n + 1) + 62
  | .create2 => 60 * (n + 1) + 61
  | .turn i => 60 * (n + 1 - i) + 60
  | .sending i _ => 60 * (n + 1 - i) + 50
  | .waiting i => 60 * (n + 1 - i) + 40
  | .reading i _ => 60 * (n + 1 - i) + 20
  | .freeing i _ => 60 * (n + 1 - i) + 10
  | .stopping _ => 30
  | .done => 0

/-- What is left of the turn of the secondary's loop. -/
def Secondary.rank : Secondary → ℕ
  | .lookup => 9
  | .lookup2 => 8
  | .polling => 7
  | .testing _ => 6
  | .printing _ => 5
  | .computing _ => 4
  | .freeing _ _ => 3
  | .answering _ => 2
  | .exiting _ => 1
  | .sending _ => 1
  | .done => 0

/-- A reply that is on its way stands for the ten steps it takes to make one. -/
def replyRank : Option (List ℕ) → ℕ
  | some (_ :: _) => 0
  | _ => 10

/-- How many more steps that change the state there can be. -/
def rank (requests : List CInt) (s : State) : ℕ :=
  s.primary.rank requests.length + s.secondary.rank + replyRank s.ring2

/-- The step only waits, or it brings the end closer. -/
def Progress (requests : List CInt) (s t : State) : Prop := t = s ∨ rank requests t < rank requests s

/-! ### Steps -/

theorem stepSecondary_idle (cap : ℕ) (hidle : s.secondary.Idle) (hring : s.ring = some []) (hring2 : s.ring2 = some [])
    (a : ℕ) : ∃ sec : Secondary, sec.Idle ∧ (sec = s.secondary ∨ sec.rank < s.secondary.rank) ∧
      stepSecondary cap s a = some { s with secondary := sec } := by
  obtain ⟨heap, ring, ring2, primary, secondary, received, served⟩ := s
  simp only at hidle hring hring2
  subst hring hring2
  cases secondary with
  | lookup => exact ⟨.lookup2, trivial, .inr (by simp [Secondary.rank]), rfl⟩
  | lookup2 => exact ⟨.polling, trivial, .inr (by simp [Secondary.rank]), rfl⟩
  | polling => exact ⟨.polling, trivial, .inl rfl, rfl⟩
  | _ => exact hidle.elim

theorem stepSecondary_idle_of_message (cap : ℕ) (hidle : s.secondary.Idle) {m : ℕ}
    (hring : s.ring = some [m]) (hring2 : s.ring2 = some []) (a : ℕ) :
    (∃ sec : Secondary, sec.Idle ∧ sec.rank < s.secondary.rank ∧
      stepSecondary cap s a = some { s with secondary := sec }) ∨
    (Secondary.testing m).rank < s.secondary.rank ∧
      stepSecondary cap s a = some { s with ring := some [], secondary := .testing m } := by
  obtain ⟨heap, ring, ring2, primary, secondary, received, served⟩ := s
  simp only at hidle hring hring2
  subst hring hring2
  cases secondary with
  | lookup => exact .inl ⟨.lookup2, trivial, by simp [Secondary.rank], rfl⟩
  | lookup2 => exact .inl ⟨.polling, trivial, by simp [Secondary.rank], rfl⟩
  | polling => exact .inr ⟨by simp [Secondary.rank], rfl⟩
  | _ => exact hidle.elim

theorem tens_take_succ {i : ℕ} {v : CInt} (h : requests[i]? = some v) :
    tens (requests.take (i + 1)) = tens (requests.take i) ++ [v * 10] := by
  rw [List.take_add_one, h]
  simp [tens]

theorem lt_of_getElem? {i : ℕ} {v : CInt} (h : requests[i]? = some v) : i < requests.length :=
  (List.getElem?_eq_some_iff.1 h).1

theorem good_stepPrimary (hcap : 1 ≤ cap) (hs : Good requests s) {a : ℕ}
    (ha : Enabled s (.primary, a)) :
    ∃ t, stepPrimary cap requests s a = some t ∧ Good requests t ∧ Progress requests s t := by
  obtain ⟨heap, ring, ring2, primary, secondary, received, served⟩ := s
  obtain ⟨cells, howns, hphase⟩ := hs
  have hroom : ∀ m : ℕ, rteRingEnqueue cap [] m = some [m] := fun m =>
    rteRingEnqueue_of_lt (r := []) hcap m
  simp only at hphase howns
  cases hphase with
  | create =>
    refine ⟨_, rfl, ⟨[], howns, .create2 (.inl rfl)⟩, .inr ?_⟩
    simp [rank, Primary.rank, replyRank]
  | create2 hsec =>
    have hidle : secondary.Idle := by rcases hsec with rfl | rfl <;> trivial
    refine ⟨_, rfl, ⟨[], howns, .turn (Nat.zero_le _) hidle⟩, .inr ?_⟩
    simp [rank, Primary.rank, replyRank]
  | @turn i _ hi hidle =>
    have hnone : heap a = none := ha ⟨i, rfl⟩
    cases hv : requests[i]? with
    | some v =>
      refine ⟨⟨heap.alloc a v, _, _, .sending i a, secondary, tens (requests.take i), _⟩,
        by simp only [stepPrimary, hv], ⟨_, howns.alloc hnone v, .sending hv hidle⟩, .inr ?_⟩
      simp only [rank, Primary.rank]
      omega
    | none =>
      have hlen : requests.length ≤ i := List.getElem?_eq_none_iff.1 hv
      rw [List.take_of_length_le hlen]
      refine ⟨⟨heap.alloc a (-1), _, _, .stopping a, secondary, tens requests, _⟩,
        by simp only [stepPrimary, hv], ⟨_, howns.alloc hnone (-1), .stopping hidle⟩, .inr ?_⟩
      simp only [rank, Primary.rank]
      omega
  | @sending i m v _ hv hidle =>
    refine ⟨⟨heap, some [m], _, .waiting i, secondary, tens (requests.take i), _⟩,
      by simp only [stepPrimary, Option.map_some, hroom], ⟨_, howns, .sent hv hidle⟩, .inr ?_⟩
    simp only [rank, Primary.rank]
    omega
  | sent hv hidle => exact ⟨_, rfl, ⟨_, howns, .sent hv hidle⟩, .inl rfl⟩
  | testing hv => exact ⟨_, rfl, ⟨_, howns, .testing hv⟩, .inl rfl⟩
  | printing hv => exact ⟨_, rfl, ⟨_, howns, .printing hv⟩, .inl rfl⟩
  | computing hv => exact ⟨_, rfl, ⟨_, howns, .computing hv⟩, .inl rfl⟩
  | freeing hv => exact ⟨_, rfl, ⟨_, howns, .freeing hv⟩, .inl rfl⟩
  | answering hv => exact ⟨_, rfl, ⟨_, howns, .answering hv⟩, .inl rfl⟩
  | replying hv => exact ⟨_, rfl, ⟨_, howns, .replying hv⟩, .inl rfl⟩
  | @replied i m v hv =>
    refine ⟨⟨heap, _, some [], .reading i m, _, _, _⟩, rfl, ⟨_, howns, .reading hv⟩, .inr ?_⟩
    simp only [rank, Primary.rank, replyRank]
    omega
  | @reading i m v hv =>
    have hload := howns.load List.mem_cons_self
    refine ⟨⟨heap, _, _, .freeing i m, _, tens (requests.take (i + 1)), _⟩,
      by simp only [stepPrimary, hload, Option.map_some, tens_take_succ hv], ⟨_, howns, .freeingReply hv⟩, .inr ?_⟩
    simp only [rank, Primary.rank]
    omega
  | @freeingReply i m v hv =>
    obtain ⟨heap', hfree, howns'⟩ := howns.free
    have hi := lt_of_getElem? hv
    refine ⟨⟨heap', _, _, .turn (i + 1), .polling, tens (requests.take (i + 1)), _⟩,
      by simp only [stepPrimary, hfree, Option.map_some], ⟨_, howns', .turn hi trivial⟩, .inr ?_⟩
    simp only [rank, Primary.rank]
    omega
  | @stopping m _ hidle =>
    refine ⟨⟨heap, some [m], _, .done, secondary, tens requests, _⟩,
      by simp only [stepPrimary, Option.map_some, hroom], ⟨_, howns, .stopped hidle⟩, .inr ?_⟩
    simp only [rank, Primary.rank]
    omega
  | stopped hidle => exact ⟨_, rfl, ⟨_, howns, .stopped hidle⟩, .inl rfl⟩
  | testingStop => exact ⟨_, rfl, ⟨_, howns, .testingStop⟩, .inl rfl⟩
  | exiting => exact ⟨_, rfl, ⟨_, howns, .exiting⟩, .inl rfl⟩
  | ended => exact ⟨_, rfl, ⟨_, howns, .ended⟩, .inl rfl⟩

/-- Each step of the secondary keeps to the situations listed; no request holds the value that ends it. -/
theorem good_stepSecondary (hcap : 1 ≤ cap) (hstop : (-1 : CInt) ∉ requests) (hs : Good requests s) {a : ℕ}
    (ha : Enabled s (.secondary, a)) :
    ∃ t, stepSecondary cap s a = some t ∧ Good requests t ∧ Progress requests s t := by
  have hroom : ∀ m : ℕ, rteRingEnqueue cap [] m = some [m] := fun m =>
    rteRingEnqueue_of_lt (r := []) hcap m
  -- while it is idle, the rest of the state decides nothing
  have hwait : ∀ {cells : List (ℕ × CInt)}, Owns s.heap cells → s.secondary.Idle → s.ring = some [] →
      s.ring2 = some [] → (∀ sec : Secondary, sec.Idle →
        Phase requests cells s.ring s.ring2 s.primary sec s.received s.served) →
      ∃ t, stepSecondary cap s a = some t ∧ Good requests t ∧ Progress requests s t := by
    intro cells howns hidle hring hring2 hphase
    obtain ⟨sec, hsec, hrank, hstep⟩ := stepSecondary_idle cap hidle hring hring2 a
    refine ⟨_, hstep, ⟨cells, howns, hphase sec hsec⟩, ?_⟩
    rcases hrank with rfl | hlt
    · exact .inl rfl
    · exact .inr (by simpa [rank] using hlt)
  have hmessage : ∀ {cells : List (ℕ × CInt)} {m : ℕ}, Owns s.heap cells → s.secondary.Idle →
      s.ring = some [m] → s.ring2 = some [] → (∀ sec : Secondary, sec.Idle →
        Phase requests cells s.ring s.ring2 s.primary sec s.received s.served) →
      Phase requests cells (some []) s.ring2 s.primary (.testing m) s.received s.served →
      ∃ t, stepSecondary cap s a = some t ∧ Good requests t ∧ Progress requests s t := by
    intro cells m howns hidle hring hring2 hphase htesting
    rcases stepSecondary_idle_of_message cap hidle hring hring2 a with
      ⟨sec, hsec, hlt, hstep⟩ | ⟨hlt, hstep⟩
    · exact ⟨_, hstep, ⟨cells, howns, hphase sec hsec⟩, .inr (by simpa [rank] using hlt)⟩
    · exact ⟨_, hstep, ⟨cells, howns, htesting⟩, .inr (by simpa [rank] using hlt)⟩
  obtain ⟨heap, ring, ring2, primary, secondary, received, served⟩ := s
  obtain ⟨cells, howns, hphase⟩ := hs
  simp only at hphase howns hwait hmessage
  cases hphase with
  | create => exact ⟨_, rfl, ⟨_, howns, .create⟩, .inl rfl⟩
  | create2 hsec =>
    rcases hsec with rfl | rfl
    · refine ⟨_, rfl, ⟨_, howns, .create2 (.inr rfl)⟩, .inr ?_⟩
      simp [rank, Secondary.rank]
    · exact ⟨_, rfl, ⟨_, howns, .create2 (.inr rfl)⟩, .inl rfl⟩
  | turn hi hidle => exact hwait howns hidle rfl rfl fun _ h => .turn hi h
  | sending hv hidle => exact hwait howns hidle rfl rfl fun _ h => .sending hv h
  | sent hv hidle => exact hmessage howns hidle rfl rfl (fun _ h => .sent hv h) (.testing hv)
  | @testing i m v hv =>
    have hload := howns.load List.mem_cons_self
    have hne : v ≠ -1 := fun h => hstop (h ▸ List.mem_of_getElem? hv)
    refine ⟨⟨heap, _, _, _, .printing m, tens (requests.take i), _⟩,
      by simp only [stepSecondary, hload, Option.map_some, if_neg hne], ⟨_, howns, .printing hv⟩, .inr ?_⟩
    simp [rank, Secondary.rank]
  | @printing i m v hv =>
    have hload := howns.load List.mem_cons_self
    have hserved : requests.take i ++ [v] = requests.take (i + 1) := by
      rw [List.take_add_one, hv]
      rfl
    refine ⟨⟨heap, _, _, _, .computing m, tens (requests.take i), requests.take (i + 1)⟩,
      by simp only [stepSecondary, hload, Option.map_some, hserved], ⟨_, howns, .computing hv⟩, .inr ?_⟩
    simp [rank, Secondary.rank]
  | @computing i m v hv =>
    have hload := howns.load List.mem_cons_self
    refine ⟨⟨heap, _, _, _, .freeing m (v * 10), tens (requests.take i), _⟩,
      by simp only [stepSecondary, hload, Option.map_some], ⟨_, howns, .freeing hv⟩, .inr ?_⟩
    simp [rank, Secondary.rank]
  | @freeing i m v hv =>
    obtain ⟨heap', hfree, howns'⟩ := howns.free
    refine ⟨⟨heap', _, _, _, .answering (v * 10), tens (requests.take i), _⟩,
      by simp only [stepSecondary, hfree, Option.map_some], ⟨_, howns', .answering hv⟩, .inr ?_⟩
    simp [rank, Secondary.rank]
  | @answering i v hv =>
    have hnone : heap a = none := ha ⟨_, rfl⟩
    refine ⟨_, rfl, ⟨_, howns.alloc hnone (v * 10), .replying hv⟩, .inr ?_⟩
    simp [rank, Secondary.rank]
  | @replying i m v hv =>
    refine ⟨⟨heap, _, some [m], _, .polling, tens (requests.take i), _⟩,
      by simp only [stepSecondary, Option.map_some, hroom], ⟨_, howns, .replied hv⟩, .inr ?_⟩
    simp [rank, Secondary.rank, replyRank]
  | replied hv => exact ⟨_, rfl, ⟨_, howns, .replied hv⟩, .inl rfl⟩
  | reading hv => exact ⟨_, rfl, ⟨_, howns, .reading hv⟩, .inl rfl⟩
  | freeingReply hv => exact ⟨_, rfl, ⟨_, howns, .freeingReply hv⟩, .inl rfl⟩
  | stopping hidle => exact hwait howns hidle rfl rfl fun _ h => .stopping h
  | stopped hidle => exact hmessage howns hidle rfl rfl (fun _ h => .stopped h) .testingStop
  | @testingStop m =>
    have hload := howns.load List.mem_cons_self
    refine ⟨⟨heap, _, _, _, .exiting m, tens requests, _⟩,
      by simp only [stepSecondary, hload, Option.map_some, if_true], ⟨_, howns, .exiting⟩, .inr ?_⟩
    simp [rank, Secondary.rank]
  | exiting =>
    obtain ⟨heap', hfree, howns'⟩ := howns.free
    refine ⟨⟨heap', _, _, _, .done, tens requests, _⟩,
      by simp only [stepSecondary, hfree, Option.map_some], ⟨_, howns', .ended⟩, .inr ?_⟩
    simp [rank, Secondary.rank]
  | ended => exact ⟨_, rfl, ⟨_, howns, .ended⟩, .inl rfl⟩

/-- **Every step** keeps to the situations listed, without a fault, and only waits or brings the end
closer. -/
theorem good_step (hcap : 1 ≤ cap) (hstop : (-1 : CInt) ∉ requests) (hs : Good requests s)
    {ev : Proc × ℕ} (hev : Enabled s ev) :
    ∃ t, step cap requests s ev = some t ∧ Good requests t ∧ Progress requests s t := by
  obtain ⟨p, a⟩ := ev
  cases p with
  | primary => exact good_stepPrimary hcap hs hev
  | secondary => exact good_stepSecondary hcap hstop hs hev

theorem run_good (hcap : 1 ≤ cap) (hstop : (-1 : CInt) ∉ requests)
    (h : Run (Step cap requests) init evs s) : Good requests s :=
  h.invariant (good_init requests) fun a ev b ha hst => by
    obtain ⟨t, ht, hgood, -⟩ := good_step hcap hstop ha hst.1
    obtain rfl : t = b := Option.some.inj (ht.symm.trans hst.2)
    exact hgood

/-! ### What the situations have in common -/

theorem Good.unique (hs : Good requests s) {a b : ℕ} (ha : s.heap a ≠ none) (hb : s.heap b ≠ none) :
    a = b := by
  obtain ⟨heap, ring, ring2, primary, secondary, received, served⟩ := s
  obtain ⟨cells, howns, hphase⟩ := hs
  simp only at ha hb howns hphase
  have hmem : ∀ {c : ℕ}, heap c ≠ none → c ∈ cells.map Prod.fst := fun hc => by
    by_contra hno
    exact hc (howns.eq_none_iff.2 hno)
  have hone : ∃ cell : List ℕ, cells.map Prod.fst = cell ∧ cell.length ≤ 1 := by
    refine ⟨_, rfl, ?_⟩
    cases hphase <;> simp
  obtain ⟨cell, hcell, hlen⟩ := hone
  have ha' := hmem ha
  have hb' := hmem hb
  rw [hcell] at ha' hb'
  rcases cell with _ | ⟨c, _ | ⟨d, l⟩⟩
  · cases ha'
  · rw [List.mem_singleton.1 ha', List.mem_singleton.1 hb']
  · simp at hlen

/-- No message is in the first ring when the primary is about to send one. -/
theorem Good.ring_of_stopping (hs : Good requests s) {stop : ℕ} (h : s.primary = .stopping stop) :
    s.ring = some [] := by
  obtain ⟨heap, ring, ring2, primary, secondary, received, served⟩ := s
  obtain ⟨cells, -, hphase⟩ := hs
  simp only at h hphase ⊢
  subst h
  cases hphase
  rfl

/-- The secondary has received the first requests in order, and the primary the replies to them, but for the
last one perhaps. -/
theorem Good.values (hs : Good requests s) : ∃ i, s.received = tens (requests.take i) ∧
    (s.served = requests.take i ∨ s.served = requests.take (i + 1)) := by
  obtain ⟨heap, ring, ring2, primary, secondary, received, served⟩ := s
  obtain ⟨cells, -, hphase⟩ := hs
  simp only at hphase ⊢
  have hall : requests = requests.take requests.length := List.take_length.symm
  cases hphase with
  | create => exact ⟨0, rfl, .inl rfl⟩
  | create2 => exact ⟨0, rfl, .inl rfl⟩
  | computing => exact ⟨_, rfl, .inr rfl⟩
  | freeing => exact ⟨_, rfl, .inr rfl⟩
  | answering => exact ⟨_, rfl, .inr rfl⟩
  | replying => exact ⟨_, rfl, .inr rfl⟩
  | replied => exact ⟨_, rfl, .inr rfl⟩
  | reading => exact ⟨_, rfl, .inr rfl⟩
  | stopping => exact ⟨_, congrArg tens hall, .inl hall⟩
  | stopped => exact ⟨_, congrArg tens hall, .inl hall⟩
  | testingStop => exact ⟨_, congrArg tens hall, .inl hall⟩
  | exiting => exact ⟨_, congrArg tens hall, .inl hall⟩
  | ended => exact ⟨_, congrArg tens hall, .inl hall⟩
  | _ => exact ⟨_, rfl, .inl rfl⟩

/-- Both processes have returned. -/
def Final (s : State) : Prop := s.primary = .done ∧ s.secondary = .done

theorem Good.of_final (hs : Good requests s) (h : Final s) :
    s.received = tens requests ∧ s.served = requests ∧ ∀ a, s.heap a = none := by
  obtain ⟨heap, ring, ring2, primary, secondary, received, served⟩ := s
  obtain ⟨cells, howns, hphase⟩ := hs
  obtain ⟨hprimary, hsecondary⟩ := h
  simp only at hprimary hsecondary hphase howns ⊢
  subst hprimary hsecondary
  cases hphase with
  | stopped hidle => exact hidle.elim
  | ended => exact ⟨rfl, rfl, howns.eq_none⟩

/-- The next step of the primary is not one of waiting. -/
def PrimaryGoes (s : State) : Prop :=
  match s.primary with
  | .sending _ _ => s.ring = some []
  | .stopping _ => s.ring = some []
  | .waiting _ => ∃ m, s.ring2 = some [m]
  | .done => False
  | _ => True

/-- The next step of the secondary is not one of waiting. -/
def SecondaryGoes (s : State) : Prop :=
  match s.secondary with
  | .lookup => s.ring ≠ none
  | .lookup2 => s.ring2 ≠ none
  | .polling => ∃ m, s.ring = some [m]
  | .sending _ => s.ring2 = some []
  | .done => False
  | _ => True

theorem primary_ne_of_step (hcap : 1 ≤ cap) (hgoes : PrimaryGoes s) {a : ℕ}
    (h : stepPrimary cap requests s a = some t) : t.primary ≠ s.primary := by
  have hroom : ∀ m : ℕ, rteRingEnqueue cap [] m = some [m] := fun m =>
    rteRingEnqueue_of_lt (r := []) hcap m
  obtain ⟨heap, ring, ring2, primary, secondary, received, served⟩ := s
  unfold PrimaryGoes at hgoes
  cases primary with
  | create =>
    obtain rfl := Option.some.inj h
    exact nofun
  | create2 =>
    obtain rfl := Option.some.inj h
    exact nofun
  | turn i =>
    simp only [stepPrimary] at h
    cases hv : requests[i]? with
    | some v =>
      rw [hv] at h
      obtain rfl := Option.some.inj h
      exact nofun
    | none =>
      rw [hv] at h
      obtain rfl := Option.some.inj h
      exact nofun
  | sending i msg =>
    obtain rfl : ring = some [] := hgoes
    simp only [stepPrimary, Option.map_some, hroom] at h
    obtain rfl := Option.some.inj h
    exact nofun
  | waiting i =>
    obtain ⟨m, rfl⟩ : ∃ m, ring2 = some [m] := hgoes
    obtain rfl := Option.some.inj h
    exact nofun
  | reading i val =>
    obtain ⟨v, -, rfl⟩ := Option.map_eq_some_iff.1 h
    exact nofun
  | freeing i val =>
    obtain ⟨heap', -, rfl⟩ := Option.map_eq_some_iff.1 h
    exact nofun
  | stopping stop =>
    obtain rfl : ring = some [] := hgoes
    simp only [stepPrimary, Option.map_some, hroom] at h
    obtain rfl := Option.some.inj h
    exact nofun
  | done => exact hgoes.elim

theorem secondary_ne_of_step (hcap : 1 ≤ cap) (hgoes : SecondaryGoes s) {a : ℕ}
    (h : stepSecondary cap s a = some t) : t.secondary ≠ s.secondary := by
  have hroom : ∀ m : ℕ, rteRingEnqueue cap [] m = some [m] := fun m =>
    rteRingEnqueue_of_lt (r := []) hcap m
  obtain ⟨heap, ring, ring2, primary, secondary, received, served⟩ := s
  unfold SecondaryGoes at hgoes
  cases secondary with
  | lookup =>
    obtain ⟨l, rfl⟩ := Option.ne_none_iff_exists'.1 hgoes
    obtain rfl := Option.some.inj h
    exact nofun
  | lookup2 =>
    obtain ⟨l, rfl⟩ := Option.ne_none_iff_exists'.1 hgoes
    obtain rfl := Option.some.inj h
    exact nofun
  | polling =>
    obtain ⟨m, rfl⟩ : ∃ m, ring = some [m] := hgoes
    obtain rfl := Option.some.inj h
    exact nofun
  | testing val =>
    obtain ⟨v, -, rfl⟩ := Option.map_eq_some_iff.1 h
    show (if v = -1 then Secondary.exiting val else .printing val) ≠ .testing val
    split_ifs <;> exact nofun
  | exiting val =>
    obtain ⟨heap', -, rfl⟩ := Option.map_eq_some_iff.1 h
    exact nofun
  | printing val =>
    obtain ⟨v, -, rfl⟩ := Option.map_eq_some_iff.1 h
    exact nofun
  | computing val =>
    obtain ⟨v, -, rfl⟩ := Option.map_eq_some_iff.1 h
    exact nofun
  | freeing val result =>
    obtain ⟨heap', -, rfl⟩ := Option.map_eq_some_iff.1 h
    exact nofun
  | answering result =>
    obtain rfl := Option.some.inj h
    exact nofun
  | sending reply =>
    obtain rfl : ring2 = some [] := hgoes
    simp only [stepSecondary, Option.map_some, hroom] at h
    obtain rfl := Option.some.inj h
    exact nofun
  | done => exact hgoes.elim

theorem Secondary.Idle.goes (hidle : s.secondary.Idle) {m : ℕ} (hring : s.ring = some [m])
    (hring2 : s.ring2 = some []) : SecondaryGoes s := by
  unfold SecondaryGoes
  cases hsec : s.secondary with
  | lookup => simp [hring]
  | lookup2 => simp [hring2]
  | polling => exact ⟨m, hring⟩
  | _ =>
    rw [hsec] at hidle
    exact hidle.elim

theorem Good.goes (hs : Good requests s) (h : ¬ Final s) : PrimaryGoes s ∨ SecondaryGoes s := by
  obtain ⟨heap, ring, ring2, primary, secondary, received, served⟩ := s
  obtain ⟨cells, -, hphase⟩ := hs
  simp only at hphase
  cases hphase with
  | sending => exact .inl rfl
  | stopping => exact .inl rfl
  | replied => exact .inl ⟨_, rfl⟩
  | sent _ hidle => exact .inr (hidle.goes rfl rfl)
  | stopped hidle => exact .inr (hidle.goes rfl rfl)
  | testing => exact .inr trivial
  | printing => exact .inr trivial
  | computing => exact .inr trivial
  | freeing => exact .inr trivial
  | answering => exact .inr trivial
  | replying => exact .inr rfl
  | testingStop => exact .inr trivial
  | exiting => exact .inr trivial
  | ended => exact absurd ⟨rfl, rfl⟩ h
  | _ => exact .inl trivial

/-- Until both have returned, one of the processes has a step that is not one of waiting. -/
theorem Good.exists_progress (hcap : 1 ≤ cap) (hs : Good requests s) (h : ¬ Final s) :
    ∃ p, ∀ a t, step cap requests s (p, a) = some t →
      t.primary ≠ s.primary ∨ t.secondary ≠ s.secondary := by
  rcases hs.goes h with hgoes | hgoes
  · exact ⟨.primary, fun a t ht => .inl (primary_ne_of_step hcap hgoes ht)⟩
  · exact ⟨.secondary, fun a t ht => .inr (secondary_ne_of_step hcap hgoes ht)⟩

/-! ### Runs -/

/-- **No use after free**, for any requests but the value that ends the secondary, on rings of any size, under any
schedule and whatever memory `rte_malloc` returns: no step of a run loads or frees memory that is not
allocated, or uses a ring that does not exist.  At most one message is allocated at any time.  The enqueue of the
last message, whose result the primary ignores, finds room.  The values are received in order, and
each reply is the tenfold of its request. -/
theorem no_fault (hcap : 1 ≤ cap) (hstop : (-1 : CInt) ∉ requests)
    (h : Run (Step cap requests) init evs s) :
    (∀ ev, Enabled s ev → step cap requests s ev ≠ none) ∧
    (∀ a b, s.heap a ≠ none → s.heap b ≠ none → a = b) ∧
    (∀ stop, s.primary = .stopping stop → ∃ ring, s.ring = some ring ∧ ring.length < cap) ∧
    ∃ i, s.received = tens (requests.take i) ∧
      (s.served = requests.take i ∨ s.served = requests.take (i + 1)) := by
  have hs := run_good hcap hstop h
  refine ⟨fun ev hev hnone => ?_, fun a b => hs.unique, fun stop hprimary => ?_, hs.values⟩
  · obtain ⟨t, ht, -⟩ := good_step hcap hstop hs hev
    rw [hnone] at ht
    cases ht
  · exact ⟨[], hs.ring_of_stopping hprimary, hcap⟩

theorem mainCapacity_pos : 1 ≤ mainCapacity := by
  unfold mainCapacity rteRingCapacity
  omega

theorem stop_notMem_mainRequests : (-1 : CInt) ∉ mainRequests := by decide

/-- The state when the primary has sent its first request, for which it got the cell 7. -/
def afterRequest : State := ⟨Heap.empty.alloc 7 0, some [7], some [], .waiting 0, .lookup, [], []⟩

theorem run_afterRequest : Run (Step mainCapacity mainRequests) init
    [(.primary, 0), (.primary, 0), (.primary, 7), (.primary, 0)] afterRequest := by
  have henabled : ∀ {s : State} {a : ℕ}, s.heap = Heap.empty → Enabled s (.primary, a) := by
    rintro s a h -
    rw [h]
    rfl
  refine Run.cons_iff.2 ⟨_, ⟨henabled rfl, rfl⟩, Run.cons_iff.2 ⟨_, ⟨henabled rfl, rfl⟩,
    Run.cons_iff.2 ⟨_, ⟨henabled rfl, rfl⟩, Run.single_iff.2 ⟨?_, rfl⟩⟩⟩⟩
  rintro ⟨i, hi⟩
  cases hi

/-- The primary waits, and the secondary has not found the rings yet. -/
theorem no_fault_afterRequest : (∀ ev, Enabled afterRequest ev →
      step mainCapacity mainRequests afterRequest ev ≠ none) ∧
    ∀ a b, afterRequest.heap a ≠ none → afterRequest.heap b ≠ none → a = b := by
  have h := no_fault mainCapacity_pos stop_notMem_mainRequests run_afterRequest
  exact ⟨h.1, h.2.1⟩

theorem Good.reaches_final (hcap : 1 ≤ cap) (hstop : (-1 : CInt) ∉ requests) (hs : Good requests s) :
    ∃ evs t, Run (Step cap requests) s evs t ∧ Good requests t ∧ Final t := by
  refine Run.reaches (rank requests) (fun a ha hfinal => ?_) hs
  obtain ⟨p, hp⟩ := ha.exists_progress hcap hfinal
  obtain ⟨cells, howns, -⟩ := id ha
  obtain ⟨c, hc⟩ := howns.exists_eq_none
  have hev : Enabled a (p, c) := fun _ => hc
  obtain ⟨t, hstep, hgood, hprogress⟩ := good_step hcap hstop ha hev
  refine ⟨[(p, c)], t, Run.single_iff.2 ⟨hev, hstep⟩, hgood, .inr (hprogress.resolve_left ?_)⟩
  rintro rfl
  rcases hp c t hstep with h | h
  · exact h rfl
  · exact h rfl

/-- **Every run ends**, with all memory freed.  Without the steps in which a process only waits, a run has no
more than `60 * (n + 2) + 21` steps for `n` requests.  From every state it reaches, a run leads on to one in which both
processes have returned; and then all the requests have been received, and the reply to each, and no memory
is allocated. -/
theorem runs_end (hcap : 1 ≤ cap) (hstop : (-1 : CInt) ∉ requests)
    (h : Run (Step cap requests) init evs s) :
    (∃ evs', evs'.Sublist evs ∧ Run (fun a ev b => Step cap requests a ev b ∧ b ≠ a) init evs' s ∧
      evs'.length ≤ 60 * (requests.length + 2) + 21) ∧
    (∃ evs' t, Run (Step cap requests) s evs' t ∧ Final t) ∧
    (Final s → s.served = requests ∧ s.received = tens requests ∧ ∀ a, s.heap a = none) := by
  have hs := run_good hcap hstop h
  refine ⟨?_, ?_, fun hfinal => ?_⟩
  · obtain ⟨evs', hsub, hrun, hlen⟩ := h.destutter (rank requests) (good_init requests)
      fun a ev b ha hab => by
        obtain ⟨t, ht, hgood, hprogress⟩ := good_step hcap hstop ha hab.1
        obtain rfl : t = b := Option.some.inj (ht.symm.trans hab.2)
        exact ⟨hgood, hprogress⟩
    refine ⟨evs', hsub, hrun, ?_⟩
    have hrank : rank requests init = 60 * (requests.length + 2) + 21 := by
      simp only [rank, init, Primary.rank, Secondary.rank, replyRank]
      omega
    omega
  · obtain ⟨evs', t, hrun, -, hfinal⟩ := hs.reaches_final hcap hstop
    exact ⟨evs', t, hrun, hfinal⟩
  · obtain ⟨hreceived, hserved, hheap⟩ := hs.of_final hfinal
    exact ⟨hserved, hreceived, hheap⟩

theorem runs_end_main : ∃ evs t, Run (Step mainCapacity mainRequests) init evs t ∧
    t.served = mainRequests ∧ t.received = tens mainRequests ∧ ∀ a, t.heap a = none := by
  obtain ⟨evs, t, hrun, -, hfinal⟩ :=
    (good_init mainRequests).reaches_final mainCapacity_pos stop_notMem_mainRequests
  exact ⟨evs, t, hrun, (runs_end mainCapacity_pos stop_notMem_mainRequests hrun).2.2 hfinal⟩

end DpdkBeginners.RingDuplex
