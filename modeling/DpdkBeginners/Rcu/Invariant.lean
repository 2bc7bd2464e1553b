import DpdkBeginners.Rcu.Defs
import Mathlib.Data.List.Perm.Basic
import Mathlib.Data.List.Range

/-!
# Which versions there are

A version that the reader has loaded is the one in `gdata`, or it is the one that the writer has just swapped
out, and then `rte_rcu_qsbr_synchronize` has not been called yet, or it still waits for the reader.  The versions
that have been freed and those that `gdata` and the writer have are all that were allocated, each one once
(`Ledger`).
-/

namespace DpdkBeginners.Rcu

open DpdkBeginners.Rte DpdkBeginners.Lib
open Function (update update_self update_of_ne)

variable {updates id : ℕ} {s t : State} {ev : Event} {evs : List Event} {l l' : List ℕ} {p : ℕ}

/-! ### The ledger -/

section Ledger

variable {heap : ℕ → Option ℕ} {allocated : ℕ} {freed : List ℕ}

/-- Of the versions that were allocated, each one is in the list, and in the heap, or has been freed. -/
structure Ledger (heap : ℕ → Option ℕ) (allocated : ℕ) (freed l : List ℕ) : Prop where
  versions : (freed ++ l).Perm (List.range allocated)
  heap : ∀ p, heap p ≠ none ↔ p ∈ l

theorem Ledger.nodup (h : Ledger heap allocated freed l) : (freed ++ l).Nodup :=
  h.versions.nodup_iff.2 List.nodup_range

theorem Ledger.not_mem_freed (h : Ledger heap allocated freed l) (hp : p ∈ l) : p ∉ freed :=
  fun hfreed => (List.nodup_append.1 h.nodup).2.2 p hfreed p hp rfl

theorem Ledger.perm (h : Ledger heap allocated freed l) (hl : l.Perm l') : Ledger heap allocated freed l' :=
  ⟨(hl.symm.append_left _).trans h.versions, fun p => (h.heap p).trans hl.mem_iff⟩

theorem Ledger.alloc (h : Ledger heap allocated freed l) (value : ℕ) :
    Ledger (update heap allocated (some value)) (allocated + 1) freed (l ++ [allocated]) := by
  refine ⟨?_, fun p => ?_⟩
  · rw [← List.append_assoc, List.range_succ]
    exact h.versions.append_right _
  · rw [List.mem_append, List.mem_singleton, ← h.heap p]
    by_cases hp : p = allocated
    · simp [hp]
    · rw [update_of_ne hp, or_iff_left hp]

theorem Ledger.free (h : Ledger heap allocated freed (p :: l)) :
    Ledger (update heap p none) allocated (freed ++ [p]) l := by
  have hnodup : (p :: l).Nodup := h.nodup.of_append_right
  refine ⟨?_, fun q => ?_⟩
  · rw [List.append_assoc]
    exact h.versions
  · by_cases hq : q = p
    · rw [hq, update_self]
      exact iff_of_false (fun h => h rfl) (List.nodup_cons.1 hnodup).1
    · rw [update_of_ne hq, h.heap q, List.mem_cons, or_iff_right hq]

end Ledger

theorem rteFree_of_ne_none (hp : s.heap p ≠ none) :
    rteFree s p = some { s with heap := update s.heap p none, freed := s.freed ++ [p] } := by
  obtain ⟨value, hvalue⟩ := Option.ne_none_iff_exists'.1 hp
  unfold rteFree
  rw [hvalue]

/-! ### The invariant -/

/-- The versions that are not freed yet, `g` being the one in `gdata`. -/
def kept (g : ℕ) : MainPc → List ℕ
  | .exchange _ new => [g, new]
  | .synchronize _ old => [g, old]
  | .synchronizing _ old => [g, old]
  | .free _ old => [g, old]
  | .ended => []
  | _ => [g]

/-- How many versions have been allocated. -/
def Counted (updates : ℕ) : MainPc → ℕ → Prop
  | .test i, n => n = i + 1 ∧ i ≤ updates
  | .exchange i _, n => n = i + 2 ∧ i < updates
  | .synchronize i _, n => n = i + 2 ∧ i < updates
  | .synchronizing i _, n => n = i + 2 ∧ i < updates
  | .free i _, n => n = i + 2 ∧ i < updates
  | _, n => n = updates + 1

/-- The reader is in its loop. -/
def ReaderPc.InLoop : ReaderPc → Prop
  | .register => False
  | .online => False
  | .unregister => False
  | .returned => False
  | _ => True

/-- The reader has registered and not yet unregistered. -/
def ReaderPc.Registered : ReaderPc → Prop
  | .register => False
  | .returned => False
  | _ => True

/-- The writer has returned. -/
def MainPc.Stopped : MainPc → Prop
  | .waitLcore => True
  | .cleanup => True
  | .ended => True
  | _ => False

/-- **The invariant.** -/
structure Inv (updates id : ℕ) (s : State) : Prop where
  ledger : Ledger s.heap s.allocated s.freed (kept s.gdata s.main)
  counted : Counted updates s.main s.allocated
  loaded : ∀ d, s.reader = .deref d → d = s.gdata ∨ (∃ i, s.main = .synchronize i d) ∨
    ∃ i, s.main = .synchronizing i d ∧ id ∈ s.qsbr.waiting
  registered : s.reader.Registered → id ∈ s.qsbr.registered
  online : s.reader.InLoop ↔ id ∈ s.qsbr.online
  onlyReader : ∀ t ∈ s.qsbr.registered, t = id
  waiting : ∀ t ∈ s.qsbr.waiting, t = id ∧ s.reader.InLoop
  stopped : s.main.Stopped → s.stop = true
  joined : s.main = .cleanup ∨ s.main = .ended → s.reader = .returned

theorem inv_init : Inv updates id init := by
  constructor
  case ledger =>
    refine ⟨.refl _, fun p => ?_⟩
    by_cases hp : p = 0
    · simp [init, kept, hp]
    · simp [init, kept, hp]
  case counted => exact ⟨rfl, Nat.zero_le _⟩
  all_goals simp [init, Qsbr.init, ReaderPc.Registered, ReaderPc.InLoop, MainPc.Stopped]

theorem Inv.loaded_kept (hs : Inv updates id s) {d : ℕ} (hd : s.reader = .deref d) :
    d ∈ kept s.gdata s.main := by
  rcases hs.loaded d hd with rfl | ⟨i, hmain⟩ | ⟨i, hmain, -⟩
  · cases hmain : s.main with
    | ended =>
      have hreturned := hs.joined (.inr hmain)
      rw [hd] at hreturned
      cases hreturned
    | _ => exact List.mem_cons_self
  · simp [hmain, kept]
  · simp [hmain, kept]

/-! ### Steps of the reader -/

/-- **The reader** does not fail, and keeps the invariant. -/
theorem inv_readerStep (hs : Inv updates id s) (hen : s.reader ≠ .returned) :
    ∃ t, readerStep id s = some t ∧ Inv updates id t := by
  have hregistered := hs.registered
  have honline := hs.online
  have hwaiting := hs.waiting
  have hjoined : ∀ r : ReaderPc, s.main = .cleanup ∨ s.main = .ended → r = .returned :=
    fun r hmain => absurd (hs.joined hmain) hen
  unfold readerStep
  cases hr : s.reader with
  | register =>
    rw [hr] at honline hwaiting
    refine ⟨_, rfl, { hs with
      loaded := fun d hd => by cases hd
      registered := fun _ => Finset.mem_insert_self _ _
      online := honline
      onlyReader := fun t ht => ?_
      waiting := hwaiting
      joined := hjoined _ }⟩
    rcases Finset.mem_insert.1 ht with rfl | ht
    · rfl
    · exact hs.onlyReader t ht
  | online =>
    rw [hr] at hregistered
    exact ⟨_, rfl, { hs with
      loaded := fun d hd => by cases hd
      registered := hregistered
      online := iff_of_true trivial (Finset.mem_insert_self _ _)
      waiting := fun t ht => ⟨(hwaiting t ht).1, trivial⟩
      joined := hjoined _ }⟩
  | test =>
    rw [hr] at hregistered honline hwaiting
    refine ⟨_, rfl, ?_⟩
    split_ifs
    · exact { hs with
        loaded := fun d hd => by cases hd
        registered := hregistered
        online := honline
        waiting := hwaiting
        joined := hjoined _ }
    · exact { hs with
        loaded := fun d hd => by cases hd
        registered := hregistered
        online := honline
        waiting := hwaiting
        joined := hjoined _ }
  | load =>
    rw [hr] at hregistered honline hwaiting
    exact ⟨_, rfl, { hs with
      loaded := fun d hd => .inl (ReaderPc.deref.inj hd).symm
      registered := hregistered
      online := honline
      waiting := hwaiting
      joined := hjoined _ }⟩
  | deref d =>
    rw [hr] at hregistered honline hwaiting
    obtain ⟨value, hvalue⟩ := Option.ne_none_iff_exists'.1 ((hs.ledger.heap d).2 (hs.loaded_kept hr))
    dsimp only
    rw [hvalue]
    exact ⟨_, rfl, { hs with
      loaded := fun d hd => by cases hd
      registered := hregistered
      online := honline
      waiting := hwaiting
      joined := hjoined _ }⟩
  | quiescent =>
    rw [hr] at hregistered honline hwaiting
    exact ⟨_, rfl, { hs with
      loaded := fun d hd => by cases hd
      registered := hregistered
      online := honline
      waiting := fun t ht => hwaiting t (Finset.mem_of_mem_erase ht)
      joined := hjoined _ }⟩
  | offline =>
    rw [hr] at hregistered
    refine ⟨_, rfl, { hs with
      loaded := fun d hd => by cases hd
      registered := hregistered
      online := iff_of_false (fun h => h) (Finset.notMem_erase _ _)
      waiting := fun t ht => ?_
      joined := hjoined _ }⟩
    obtain ⟨hne, ht⟩ := Finset.mem_erase.1 ht
    exact absurd (hwaiting t ht).1 hne
  | unregister =>
    rw [hr] at honline hwaiting
    exact ⟨_, rfl, { hs with
      loaded := fun d hd => by cases hd
      registered := False.elim
      online := honline
      onlyReader := fun t ht => hs.onlyReader t (Finset.mem_of_mem_erase ht)
      waiting := hwaiting
      joined := fun _ => rfl }⟩
  | returned => exact absurd hr hen

/-! ### Steps of the main thread -/

/-- What the reader has loaded when the writer has swapped nothing out. -/
theorem Inv.loaded_gdata (hs : Inv updates id s) (hsync : ∀ i d, s.main ≠ .synchronize i d)
    (hsyncing : ∀ i d, s.main ≠ .synchronizing i d) {d : ℕ} (hd : s.reader = .deref d) : d = s.gdata := by
  rcases hs.loaded d hd with hd | ⟨i, hmain⟩ | ⟨i, hmain, -⟩
  · exact hd
  · exact absurd hmain (hsync i d)
  · exact absurd hmain (hsyncing i d)

/-- **The main thread** does not fail, and keeps the invariant. -/
theorem inv_mainStep (hs : Inv updates id s) (hen : Enabled s .main) :
    ∃ t, mainStep updates s = some t ∧ Inv updates id t := by
  have hledger := hs.ledger
  have hcounted := hs.counted
  unfold mainStep
  unfold Enabled at hen
  cases hm : s.main with
  | test i =>
    rw [hm] at hledger hcounted
    obtain ⟨hn, hle⟩ := hcounted
    have hloaded : ∀ d, s.reader = .deref d → d = s.gdata := fun d hd =>
      hs.loaded_gdata (by simp [hm]) (by simp [hm]) hd
    dsimp only
    split_ifs with hi
    · refine ⟨_, rfl, { hs with
        ledger := hledger.alloc (i + 1)
        counted := ⟨congrArg (· + 1) hn, hi⟩
        loaded := fun d hd => .inl (hloaded d hd)
        stopped := False.elim
        joined := fun h => by simp at h }⟩
    · refine ⟨_, rfl, { hs with
        ledger := hledger
        counted := hn.trans (congrArg (· + 1) (Nat.le_antisymm hle (Nat.not_lt.1 hi)))
        loaded := fun d hd => .inl (hloaded d hd)
        stopped := fun _ => rfl
        joined := fun h => by simp at h }⟩
  | exchange i new =>
    rw [hm] at hledger hcounted
    refine ⟨_, rfl, { hs with
      ledger := hledger.perm (.swap ..)
      counted := hcounted
      loaded := fun d hd => ?_
      stopped := False.elim
      joined := fun h => by simp at h }⟩
    obtain rfl := hs.loaded_gdata (by simp [hm]) (by simp [hm]) hd
    exact .inr (.inl ⟨i, rfl⟩)
  | synchronize i old =>
    rw [hm] at hledger hcounted
    refine ⟨_, rfl, { hs with
      ledger := hledger
      counted := hcounted
      loaded := fun d hd => ?_
      waiting := fun t ht => ?_
      stopped := False.elim
      joined := fun h => by simp at h }⟩
    · rcases hs.loaded d hd with hd | ⟨j, hj⟩ | ⟨j, hj, -⟩
      · exact .inl hd
      · obtain ⟨rfl, rfl⟩ := MainPc.synchronize.inj (hm.symm.trans hj)
        have hregistered := hs.registered (by rw [hd]; trivial)
        have honline := hs.online.1 (by rw [hd]; trivial)
        exact .inr (.inr ⟨i, rfl, Finset.mem_inter.2 ⟨hregistered, honline⟩⟩)
      · rw [hm] at hj
        cases hj
    · obtain ⟨hregistered, honline⟩ := Finset.mem_inter.1 ht
      obtain rfl := hs.onlyReader t hregistered
      exact ⟨rfl, hs.online.2 honline⟩
  | synchronizing i old =>
    rw [hm] at hledger hcounted hen
    refine ⟨_, rfl, { hs with
      ledger := hledger
      counted := hcounted
      loaded := fun d hd => ?_
      stopped := False.elim
      joined := fun h => by simp at h }⟩
    -- nobody is waited for any more, so the reader does not have the old version
    rcases hs.loaded d hd with hd | ⟨j, hj⟩ | ⟨j, -, hwaiting⟩
    · exact .inl hd
    · rw [hm] at hj
      cases hj
    · rw [show s.qsbr.waiting = ∅ from hen] at hwaiting
      exact absurd hwaiting (Finset.notMem_empty id)
  | free i old =>
    rw [hm] at hledger hcounted
    have hold : Ledger s.heap s.allocated s.freed [old, s.gdata] := hledger.perm (.swap ..)
    dsimp only
    rw [rteFree_of_ne_none ((hold.heap old).2 List.mem_cons_self)]
    refine ⟨_, rfl, { hs with
      ledger := hold.free
      counted := ⟨hcounted.1, hcounted.2⟩
      loaded := fun d hd => .inl (hs.loaded_gdata (by simp [hm]) (by simp [hm]) hd)
      stopped := False.elim
      joined := fun h => by simp at h }⟩
  | waitLcore =>
    rw [hm] at hledger hcounted hen
    refine ⟨_, rfl, { hs with
      ledger := hledger
      counted := hcounted
      loaded := fun d hd => .inl (hs.loaded_gdata (by simp [hm]) (by simp [hm]) hd)
      stopped := fun _ => hs.stopped (by rw [hm]; trivial)
      joined := fun _ => hen }⟩
  | cleanup =>
    rw [hm] at hledger hcounted
    have hreturned := hs.joined (.inl hm)
    dsimp only
    rw [rteFree_of_ne_none ((hledger.heap s.gdata).2 List.mem_cons_self)]
    refine ⟨_, rfl, { hs with
      ledger := hledger.free
      counted := hcounted
      loaded := fun d hd => by rw [hreturned] at hd; cases hd
      stopped := fun _ => hs.stopped (by rw [hm]; trivial)
      joined := fun _ => hreturned }⟩
  | ended =>
    rw [hm] at hen
    exact hen.elim

/-- **No step fails**, and each one keeps the invariant. -/
theorem inv_step (hs : Inv updates id s) (hen : Enabled s ev) :
    ∃ t, step updates id s ev = some t ∧ Inv updates id t := by
  cases ev with
  | main => exact inv_mainStep hs hen
  | reader => exact inv_readerStep hs hen

theorem run_safe (h : Run (Step updates id) init evs s) :
    Inv updates id s ∧ ∀ ev, Enabled s ev → step updates id s ev ≠ none :=
  h.no_failure inv_init fun _ _ => inv_step

end DpdkBeginners.Rcu
