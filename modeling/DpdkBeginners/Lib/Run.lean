import Mathlib.Data.List.Forall2
import Mathlib.Data.List.Induction
import Mathlib.Tactic.Common

/-!
# Runs of a labelled transition relation

`Run R s es t` says that the events `es`, taken one after the other by steps of `R`, lead from `s` to
`t`.  The rules are the ones a safety proof needs and no others:

* runs compose and split at any event (`Run.append`, `Run.append_iff`, `Run.cons_iff`);
* an invariant of the step is an invariant of the run (`Run.invariant`), and a condition on the events
  may be carried along as a condition on the steps (`Run.restrict`);
* a step function that fails on no state of an invariant fails nowhere (`Run.no_failure`);
* a run that ends outside a trap took no step that leads into it (`Run.outside_trap`);
* from each state that a rank leads on from, a run reaches what the rank leads to (`Run.reaches`);
* when each step that changes the state lowers a rank, a run has no more such steps than the rank says
  (`Run.destutter`);
* when each step is matched by a run of another relation, so is each run (`Run.simulate`);
* `Run.origin`: what is false at the start and true at the end was made true by some last event, and
  has held ever since.
-/

namespace DpdkBeginners.Lib

variable {σ ε : Type*}

/-- The events `es`, in order, lead from `s` to the last state by steps of `R`. -/
inductive Run (R : σ → ε → σ → Prop) (s : σ) : List ε → σ → Prop
  | refl : Run R s [] s
  | snoc {t u : σ} {es : List ε} {e : ε} : Run R s es t → R t e u → Run R s (es ++ [e]) u

namespace Run

variable {R R' : σ → ε → σ → Prop} {s t u : σ} {e : ε} {es fs : List ε}

/-! ### Composing and splitting -/

theorem nil_iff : Run R s [] t ↔ t = s := by
  constructor
  · intro h
    generalize hes : ([] : List ε) = es at h
    cases h with
    | refl => rfl
    | snoc _ _ => simp at hes
  · rintro rfl
    exact .refl

theorem snoc_iff : Run R s (es ++ [e]) u ↔ ∃ t, Run R s es t ∧ R t e u := by
  constructor
  · intro h
    generalize hes : es ++ [e] = l at h
    cases h with
    | refl => simp at hes
    | snoc h₁ h₂ =>
      obtain ⟨rfl, he⟩ := List.append_inj' hes rfl
      obtain rfl : e = _ := by simpa using he
      exact ⟨_, h₁, h₂⟩
  · rintro ⟨t, h₁, h₂⟩
    exact h₁.snoc h₂

theorem append (h₁ : Run R s es t) (h₂ : Run R t fs u) : Run R s (es ++ fs) u := by
  induction h₂ with
  | refl => simpa using h₁
  | snoc _ hstep ih =>
    rw [← List.append_assoc]
    exact ih.snoc hstep

theorem append_iff : Run R s (es ++ fs) u ↔ ∃ t, Run R s es t ∧ Run R t fs u := by
  constructor
  · induction fs using List.reverseRecOn generalizing u with
    | nil =>
      intro h
      exact ⟨u, by simpa using h, .refl⟩
    | append_singleton fs f ih =>
      intro h
      rw [← List.append_assoc, snoc_iff] at h
      obtain ⟨v, hv, hstep⟩ := h
      obtain ⟨t, h₁, h₂⟩ := ih hv
      exact ⟨t, h₁, h₂.snoc hstep⟩
  · rintro ⟨t, h₁, h₂⟩
    exact h₁.append h₂

theorem single_iff : Run R s [e] t ↔ R s e t := by
  have h : Run R s ([] ++ [e]) t ↔ _ := snoc_iff
  simpa [nil_iff] using h

theorem cons_iff : Run R s (e :: es) u ↔ ∃ t, R s e t ∧ Run R t es u := by
  have h : Run R s ([e] ++ es) u ↔ _ := append_iff
  simpa [single_iff] using h

theorem unique (hR : ∀ a f b c, R a f b → R a f c → b = c) (h : Run R s es t) (h' : Run R s es u) :
    t = u := by
  induction h generalizing u with
  | refl => exact (nil_iff.1 h').symm
  | snoc _ hstep ih =>
    obtain ⟨v, hv, hstep'⟩ := snoc_iff.1 h'
    obtain rfl := ih hv
    exact hR _ _ _ _ hstep hstep'

theorem foldl (f : σ → ε → σ) (s : σ) (es : List ε) :
    Run (fun a e b => f a e = b) s es (es.foldl f s) := by
  induction es generalizing s with
  | nil => exact .refl
  | cons e es ih => exact cons_iff.2 ⟨f s e, rfl, ih _⟩

/-! ### Invariants -/

theorem mono (hR : ∀ a f b, R a f b → R' a f b) (h : Run R s es t) : Run R' s es t := by
  induction h with
  | refl => exact .refl
  | snoc _ hstep ih => exact ih.snoc (hR _ _ _ hstep)

/-- **The invariant rule.** -/
theorem invariant {I : σ → Prop} (h : Run R s es t) (h₀ : I s)
    (hI : ∀ a f b, I a → R a f b → I b) : I t := by
  induction h with
  | refl => exact h₀
  | snoc _ hstep ih => exact hI _ _ _ ih hstep

/-- **The safety rule.**  When an enabled step from a state of the invariant does not fail and leads to such a
state, no enabled step of a run fails. -/
theorem no_failure {E : σ → ε → Prop} {f : σ → ε → Option σ} {I : σ → Prop}
    (h : Run (fun a e b => E a e ∧ f a e = some b) s es t) (h₀ : I s)
    (hI : ∀ a e, I a → E a e → ∃ b, f a e = some b ∧ I b) : I t ∧ ∀ e, E t e → f t e ≠ none := by
  have ht : I t := h.invariant h₀ fun a e b ha hstep => by
    obtain ⟨b', hb', hinv⟩ := hI a e ha hstep.1
    obtain rfl : b' = b := Option.some.inj (hb'.symm.trans hstep.2)
    exact hinv
  refine ⟨ht, fun e he hnone => ?_⟩
  obtain ⟨b, hb, -⟩ := hI t e ht he
  rw [hnone] at hb
  cases hb

/-- A condition on the events of a run may be carried along as a condition on the steps. -/
theorem restrict {Q : ε → Prop} (h : Run R s es t) (hQ : ∀ f ∈ es, Q f) :
    Run (fun a f b => R a f b ∧ Q f) s es t := by
  induction h with
  | refl => exact .refl
  | snoc _ hstep ih =>
    exact (ih fun f hf => hQ f (by simp [hf])).snoc ⟨hstep, hQ _ (by simp)⟩

theorem forall_mem {Q : ε → Prop} (h : Run R s es t) (hQ : ∀ a f b, R a f b → Q f) :
    ∀ f ∈ es, Q f := by
  induction h with
  | refl => simp
  | snoc _ hstep ih =>
    intro f hf
    rcases List.mem_append.1 hf with hf | hf
    · exact ih f hf
    · rw [List.mem_singleton] at hf
      exact hf ▸ hQ _ _ _ hstep

/-- **The trap rule.**  When a step that violates `Q` leads into a trap, a run that ends outside it
consists of steps that satisfy `Q`. -/
theorem outside_trap {I T : σ → Prop} {Q : σ → ε → Prop} (h : Run R s es t) (h₀ : I s)
    (hI : ∀ a f b, I a → R a f b → I b) (hfall : ∀ a f b, I a → R a f b → ¬ Q a f → T b)
    (hstay : ∀ a f b, I a → R a f b → T a → T b) (ht : ¬ T t) :
    Run (fun a f b => R a f b ∧ Q a f) s es t := by
  induction h with
  | refl => exact .refl
  | @snoc t u es f hrun hstep ih =>
    have hinv := hrun.invariant h₀ hI
    have hrest := ih fun hT => ht (hstay t f u hinv hstep hT)
    refine hrest.snoc ⟨hstep, ?_⟩
    by_contra hQ
    exact ht (hfall t f u hinv hstep hQ)

/-- **The variant rule.**  When from each state some run reaches `P` or a state of smaller rank, a run reaches
`P`. -/
theorem reaches {I P : σ → Prop} (rank : σ → ℕ)
    (hrank : ∀ a, I a → ¬ P a → ∃ es b, Run R a es b ∧ I b ∧ (P b ∨ rank b < rank a)) (hs : I s) :
    ∃ es t, Run R s es t ∧ I t ∧ P t := by
  induction hn : rank s using Nat.strongRecOn generalizing s with
  | ind n ih =>
    by_cases hP : P s
    · exact ⟨[], s, .refl, hs, hP⟩
    · obtain ⟨es, b, hrun, hb, hPb | hlt⟩ := hrank s hs hP
      · exact ⟨es, b, hrun, hb, hPb⟩
      · obtain ⟨fs, t, hrest, ht⟩ := ih (rank b) (hn ▸ hlt) hb rfl
        exact ⟨es ++ fs, t, hrun.append hrest, ht⟩

/-- **The bound rule.**  When each step that changes the state lowers a rank, a run has no more of these steps
than the rank says; the other ones may be left out. -/
theorem destutter {I : σ → Prop} (rank : σ → ℕ) (h : Run R s es t) (h₀ : I s)
    (hI : ∀ a f b, I a → R a f b → I b ∧ (b = a ∨ rank b < rank a)) :
    ∃ fs, fs.Sublist es ∧ Run (fun a f b => R a f b ∧ b ≠ a) s fs t ∧ fs.length + rank t ≤ rank s := by
  induction h with
  | refl => exact ⟨[], List.Sublist.refl _, .refl, by simp⟩
  | @snoc t u es f hrun hstep ih =>
    obtain ⟨fs, hfs, hrest, hle⟩ := ih
    have hinv : I t := hrun.invariant h₀ fun a f b ha hab => (hI a f b ha hab).1
    by_cases hut : u = t
    · subst hut
      exact ⟨fs, hfs.trans (List.sublist_append_left ..), hrest, hle⟩
    · have hlt : rank u < rank t := (hI t f u hinv hstep).2.resolve_left hut
      refine ⟨fs ++ [f], hfs.append (List.Sublist.refl _), hrest.snoc ⟨hstep, hut⟩, ?_⟩
      simp only [List.length_append, List.length_singleton]
      omega

/-- **The simulation rule.**  When each step from related states is matched by a run, so is each run, event by
event. -/
theorem simulate {τ φ : Type*} {S : τ → φ → τ → Prop} {rel : σ → τ → Prop} {Q : ε → List φ → Prop} {a : τ}
    (h : Run R s es t) (hrel : rel s a)
    (hstep : ∀ s e t a, rel s a → R s e t → ∃ fs b, Q e fs ∧ Run S a fs b ∧ rel t b) :
    ∃ fss b, List.Forall₂ Q es fss ∧ Run S a fss.flatten b ∧ rel t b := by
  induction h with
  | refl => exact ⟨[], a, .nil, .refl, hrel⟩
  | @snoc t u es e hrun hst ih =>
    obtain ⟨fss, b, hfss, hrun', hb⟩ := ih
    obtain ⟨fs, c, hfs, hrun'', hc⟩ := hstep t e u b hb hst
    refine ⟨fss ++ [fs], c, List.rel_append hfss (.cons hfs .nil), ?_, hc⟩
    rw [List.flatten_append, List.flatten_singleton]
    exact hrun'.append hrun''

/-- **The origin rule.**  What is false at the start and true at the end was made true by a last
event, and has held since. -/
theorem origin {P : σ → Prop} (h : Run R s es u) (h₀ : ¬ P s) (hu : P u) :
    ∃ pre e post a b, es = pre ++ e :: post ∧ Run R s pre a ∧ R a e b ∧ ¬ P a ∧ P b ∧
      Run (fun c f d => R c f d ∧ P c ∧ P d) b post u := by
  induction h with
  | refl => exact absurd hu h₀
  | @snoc t u es f hrun hstep ih =>
    by_cases ht : P t
    · obtain ⟨pre, e, post, a, b, rfl, h₁, h₂, h₃, h₄, h₅⟩ := ih ht
      exact ⟨pre, e, post ++ [f], a, b, by simp, h₁, h₂, h₃, h₄, h₅.snoc ⟨hstep, ht, hu⟩⟩
    · exact ⟨es, f, [], t, u, rfl, hrun, hstep, ht, hu, .refl⟩

end Run

end DpdkBeginners.Lib
