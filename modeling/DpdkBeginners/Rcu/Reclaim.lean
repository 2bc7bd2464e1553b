import DpdkBeginners.Rcu.Invariant

/-!
# Reclamation is safe

By the invariant no step fails, so nothing is read or freed that has been freed before
(`reclamation_safe`).  The reader may run for as long as the writer does, but neither is ever stuck: from every
state a run leads to the end of the program (`can_end`), and there each version has been freed.
-/

namespace DpdkBeginners.Rcu

open DpdkBeginners.Rte DpdkBeginners.Lib

variable {updates id : ℕ} {s t : State} {evs : List Event}

/-! ### The end of the program -/

/-- How many steps the reader takes to return, once `stop` is set. -/
def toReturn : ReaderPc → ℕ
  | .load => 6
  | .register => 5
  | .deref _ => 5
  | .online => 4
  | .quiescent => 4
  | .test => 3
  | .offline => 2
  | .unregister => 1
  | .returned => 0

/-- How many steps the reader takes to report a quiescent state or go offline. -/
def toQuiesce : ReaderPc → ℕ
  | .test => 4
  | .load => 3
  | .deref _ => 2
  | _ => 1

theorem readerStep_frame (h : readerStep id s = some t) : t.main = s.main ∧ t.stop = s.stop := by
  unfold readerStep at h
  split at h
  case h_5 =>
    split at h
    · cases h
    · cases h
      exact ⟨rfl, rfl⟩
  all_goals
    cases h
    exact ⟨rfl, rfl⟩

theorem toReturn_lt (h : readerStep id s = some t) (hen : s.reader ≠ .returned) (hstop : s.stop = true) :
    toReturn t.reader < toReturn s.reader := by
  unfold readerStep at h
  cases hr : s.reader with
  | deref d =>
    rw [hr] at h
    dsimp only at h
    split at h
    · cases h
    · cases h
      exact Nat.lt_succ_self _
  | test =>
    rw [hr] at h
    cases h
    rw [if_pos hstop]
    exact Nat.lt_succ_self _
  | returned => exact absurd hr hen
  | _ =>
    rw [hr] at h
    cases h
    exact Nat.lt_succ_self _

theorem toQuiesce_lt (hs : Inv updates id s) (h : readerStep id s = some t) (hloop : s.reader.InLoop) :
    t.qsbr.waiting = ∅ ∨ toQuiesce t.reader < toQuiesce s.reader := by
  have herase : s.qsbr.waiting.erase id = ∅ := by
    rw [Finset.eq_empty_iff_forall_notMem]
    intro u hu
    obtain ⟨hne, hu⟩ := Finset.mem_erase.1 hu
    exact hne (hs.waiting u hu).1
  unfold readerStep at h
  cases hr : s.reader with
  | deref d =>
    rw [hr] at h
    dsimp only at h
    split at h
    · cases h
    · cases h
      exact .inr (Nat.lt_succ_self _)
  | test =>
    rw [hr] at h
    cases h
    refine .inr ?_
    dsimp only
    split_ifs <;> simp [toQuiesce]
  | load =>
    rw [hr] at h
    cases h
    exact .inr (Nat.lt_succ_self _)
  | quiescent =>
    rw [hr] at h
    cases h
    exact .inl herase
  | offline =>
    rw [hr] at h
    cases h
    exact .inl herase
  | _ =>
    rw [hr] at hloop
    exact hloop.elim

theorem reader_steps (hs : Inv updates id s) (hen : s.reader ≠ .returned) :
    ∃ t, Run (Step updates id) s [.reader] t ∧ Inv updates id t ∧ readerStep id s = some t := by
  obtain ⟨t, ht, hinv⟩ := inv_readerStep hs hen
  exact ⟨t, Run.single_iff.2 ⟨hen, ht⟩, hinv, ht⟩

/-- The call of `rte_rcu_qsbr_synchronize` can come to return. -/
theorem reader_quiesces (hs : Inv updates id s) :
    ∃ evs t, Run (Step updates id) s evs t ∧ (Inv updates id t ∧ t.main = s.main) ∧
      t.qsbr.waiting = ∅ := by
  refine Run.reaches (I := fun t => Inv updates id t ∧ t.main = s.main) (fun t => toQuiesce t.reader)
    (fun a ha hwaiting => ?_) ⟨hs, rfl⟩
  obtain ⟨ha, hmain⟩ := ha
  obtain ⟨u, hu⟩ := Finset.nonempty_iff_ne_empty.2 hwaiting
  have hloop := (ha.waiting u hu).2
  have hen : a.reader ≠ .returned := by
    intro hr
    rw [hr] at hloop
    exact hloop
  obtain ⟨b, hrun, hb, hstep⟩ := reader_steps ha hen
  exact ⟨_, b, hrun, ⟨hb, (readerStep_frame hstep).1.trans hmain⟩, toQuiesce_lt ha hstep hloop⟩

theorem reader_returns (hs : Inv updates id s) (hstop : s.stop = true) :
    ∃ evs t, Run (Step updates id) s evs t ∧ (Inv updates id t ∧ t.main = s.main ∧ t.stop = true) ∧
      t.reader = .returned := by
  refine Run.reaches (I := fun t => Inv updates id t ∧ t.main = s.main ∧ t.stop = true)
    (fun t => toReturn t.reader) (fun a ha hen => ?_) ⟨hs, rfl, hstop⟩
  obtain ⟨ha, hmain, hstop⟩ := ha
  obtain ⟨b, hrun, hb, hstep⟩ := reader_steps ha hen
  obtain ⟨hframe, hframe'⟩ := readerStep_frame hstep
  exact ⟨_, b, hrun, ⟨hb, hframe.trans hmain, hframe'.trans hstop⟩, .inr (toReturn_lt hstep hen hstop)⟩

/-- How many steps the main thread takes to the end. -/
def toEnd (updates : ℕ) : MainPc → ℕ
  | .test i => 5 * (updates - i) + 3
  | .exchange i _ => 5 * (updates - i) + 2
  | .synchronize i _ => 5 * (updates - i) + 1
  | .synchronizing i _ => 5 * (updates - i)
  | .free i _ => 5 * (updates - i) - 1
  | .waitLcore => 2
  | .cleanup => 1
  | .ended => 0

theorem toEnd_lt (hs : Inv updates id s) (h : mainStep updates s = some t) (hne : s.main ≠ .ended) :
    toEnd updates t.main < toEnd updates s.main := by
  have hcounted := hs.counted
  unfold mainStep at h
  cases hm : s.main with
  | test i =>
    rw [hm] at h hcounted
    dsimp only at h
    split_ifs at h with hi
    · cases h
      exact Nat.lt_succ_self _
    · cases h
      simp only [toEnd]
      omega
  | free i old =>
    rw [hm] at h hcounted
    obtain ⟨u, -, rfl⟩ := Option.map_eq_some_iff.1 h
    obtain ⟨-, hi⟩ := hcounted
    simp only [toEnd]
    omega
  | synchronizing i old =>
    rw [hm] at h hcounted
    cases h
    obtain ⟨-, hi⟩ := hcounted
    simp only [toEnd]
    omega
  | cleanup =>
    rw [hm] at h
    obtain ⟨u, -, rfl⟩ := Option.map_eq_some_iff.1 h
    exact Nat.lt_succ_self _
  | ended => exact absurd hm hne
  | _ =>
    rw [hm] at h
    cases h
    exact Nat.lt_succ_self _

/-- The main thread can take its next step, after some steps of the reader if it has to wait. -/
theorem main_enabled (hs : Inv updates id s) (hne : s.main ≠ .ended) :
    ∃ evs t, Run (Step updates id) s evs t ∧ Inv updates id t ∧ t.main = s.main ∧ Enabled t .main := by
  cases hm : s.main with
  | synchronizing i old =>
    obtain ⟨evs, t, hrun, ⟨ht, hmain⟩, hwaiting⟩ := reader_quiesces hs
    refine ⟨evs, t, hrun, ht, hmain.trans hm, ?_⟩
    unfold Enabled
    rw [hmain, hm]
    exact hwaiting
  | waitLcore =>
    obtain ⟨evs, t, hrun, ⟨ht, hmain, -⟩, hreturned⟩ := reader_returns hs (hs.stopped (by rw [hm]; trivial))
    refine ⟨evs, t, hrun, ht, hmain.trans hm, ?_⟩
    unfold Enabled
    rw [hmain, hm]
    exact hreturned
  | ended => exact absurd hm hne
  | _ => exact ⟨[], s, .refl, hs, hm, by unfold Enabled; rw [hm]; trivial⟩

/-- **The program can end**, from every state. -/
theorem can_end (hs : Inv updates id s) :
    ∃ evs t, Run (Step updates id) s evs t ∧ Inv updates id t ∧ t.main = .ended := by
  refine Run.reaches (fun t => toEnd updates t.main) (fun a ha hne => ?_) hs
  obtain ⟨evs, b, hrun, hb, hmain, hen⟩ := main_enabled ha hne
  obtain ⟨t, ht, hinv⟩ := inv_mainStep hb hen
  have hstep : Step updates id b .main t := ⟨hen, ht⟩
  refine ⟨evs ++ [.main], t, hrun.snoc hstep, hinv, .inr ?_⟩
  rw [← hmain]
  exact toEnd_lt hb ht (hmain ▸ hne)

/-! ### Safety -/

/-- **Reclamation is safe.**  In every state: no step fails, and what the reader is about to read has not been
freed; no version has been freed twice, and in the end each one has been freed, once; the version in `gdata` is
freed only when the reader has returned; and the program can come to its end. -/
theorem reclamation_safe (h : Run (Step updates id) init evs s) :
    (∀ ev, Enabled s ev → step updates id s ev ≠ none) ∧
    (∀ d, s.reader = .deref d → d ∉ s.freed) ∧
    s.freed.Nodup ∧
    (s.main = .ended → s.freed.Perm (List.range (updates + 1))) ∧
    (s.gdata ∈ s.freed → s.reader = .returned) ∧
    ∃ evs' t, Run (Step updates id) s evs' t ∧ t.main = .ended := by
  obtain ⟨hs, hsafe⟩ := run_safe h
  refine ⟨hsafe, fun d hd => hs.ledger.not_mem_freed (hs.loaded_kept hd),
    hs.ledger.nodup.of_append_left, fun hended => ?_, fun hgdata => ?_, ?_⟩
  · have hversions := hs.ledger.versions
    have hcounted := hs.counted
    rw [hended] at hversions hcounted
    rw [show s.allocated = updates + 1 from hcounted] at hversions
    rwa [kept, List.append_nil] at hversions
  · cases hm : s.main with
    | ended => exact hs.joined (.inr hm)
    | _ =>
      have hkept : s.gdata ∈ kept s.gdata s.main := by simp [hm, kept]
      exact absurd hgdata (hs.ledger.not_mem_freed hkept)
  · obtain ⟨evs', t, hrun, -, hended⟩ := can_end hs
    exact ⟨evs', t, hrun, hended⟩

/-- One update, while the reader, which has loaded the first version, is waited for. -/
def oneUpdate : List Event :=
  [.reader, .reader, .reader, .reader, .main, .main, .main, .reader, .reader, .main, .main]

theorem reclamation_safe_oneUpdate :
    ∃ s, Run (Step 1 7) init oneUpdate s ∧ s.printed = [0] ∧ s.freed = [0] ∧ s.gdata = 1 ∧
      ∃ evs t, Run (Step 1 7) s evs t ∧ t.main = .ended := by
  have hreader : ∀ {s t}, s.reader ≠ .returned → readerStep 7 s = some t → Step 1 7 s .reader t :=
    fun hen hstep => ⟨hen, hstep⟩
  have hrun : ∃ s, Run (Step 1 7) init oneUpdate s ∧ s.printed = [0] ∧ s.freed = [0] ∧ s.gdata = 1 := by
    refine ⟨_, Run.cons_iff.2 ⟨_, hreader (by decide) rfl, Run.cons_iff.2 ⟨_, hreader (by decide) rfl,
      Run.cons_iff.2 ⟨_, hreader (by decide) rfl, Run.cons_iff.2 ⟨_, hreader (by decide) rfl,
      Run.cons_iff.2 ⟨_, ⟨trivial, rfl⟩, Run.cons_iff.2 ⟨_, ⟨trivial, rfl⟩,
      Run.cons_iff.2 ⟨_, ⟨trivial, rfl⟩, Run.cons_iff.2 ⟨_, hreader (by decide) rfl,
      Run.cons_iff.2 ⟨_, hreader (by decide) rfl, Run.cons_iff.2 ⟨_, ⟨rfl, rfl⟩,
      Run.single_iff.2 ⟨trivial, rfl⟩⟩⟩⟩⟩⟩⟩⟩⟩⟩⟩, rfl, rfl, rfl⟩
  obtain ⟨s, hrun, hprinted, hfreed, hgdata⟩ := hrun
  exact ⟨s, hrun, hprinted, hfreed, hgdata, (reclamation_safe hrun).2.2.2.2.2⟩

end DpdkBeginners.Rcu
