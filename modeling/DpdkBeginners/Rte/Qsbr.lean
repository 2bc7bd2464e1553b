import Mathlib.Data.Finset.Basic
import Mathlib.Tactic.Common

/-!
# `rte_rcu_qsbr`

A thread registers, goes online, reports quiescent states and goes offline again.  `rte_rcu_qsbr_synchronize` is
two steps: a call notes the threads that are online, and it may return when each of them has reported a
quiescent state or gone offline since (`synchronize_returns`).
-/

namespace DpdkBeginners.Rte

variable {θ : Type*} [DecidableEq θ]

/-- The threads that are registered, those that are online, and those that the call of
`rte_rcu_qsbr_synchronize` under way waits for. -/
structure Qsbr (θ : Type*) where
  registered : Finset θ
  online : Finset θ
  waiting : Finset θ

namespace Qsbr

/-- `rte_rcu_qsbr_init` -/
def init : Qsbr θ := ⟨∅, ∅, ∅⟩

variable (v : Qsbr θ) (t : θ)

/-- `rte_rcu_qsbr_thread_register` -/
def threadRegister : Qsbr θ := { v with registered := insert t v.registered }

/-- `rte_rcu_qsbr_thread_unregister` -/
def threadUnregister : Qsbr θ := { v with registered := v.registered.erase t }

/-- `rte_rcu_qsbr_thread_online` -/
def threadOnline : Qsbr θ := { v with online := insert t v.online }

/-- `rte_rcu_qsbr_thread_offline` -/
def threadOffline : Qsbr θ := { v with online := v.online.erase t, waiting := v.waiting.erase t }

/-- `rte_rcu_qsbr_quiescent` -/
def quiescent : Qsbr θ := { v with waiting := v.waiting.erase t }

/-- The call of `rte_rcu_qsbr_synchronize`; only threads that are registered are looked at. -/
def synchronize : Qsbr θ := { v with waiting := v.registered ∩ v.online }

/-! ### Grace periods -/

/-- What threads do in the meantime. -/
inductive Event (θ : Type*)
  | threadRegister (t : θ)
  | threadUnregister (t : θ)
  | threadOnline (t : θ)
  | threadOffline (t : θ)
  | quiescent (t : θ)

def apply (v : Qsbr θ) : Event θ → Qsbr θ
  | .threadRegister t => v.threadRegister t
  | .threadUnregister t => v.threadUnregister t
  | .threadOnline t => v.threadOnline t
  | .threadOffline t => v.threadOffline t
  | .quiescent t => v.quiescent t

/-- A call goes on waiting for a thread that has done neither. -/
theorem mem_waiting_foldl {v : Qsbr θ} {t : θ} {evs : List (Event θ)} (ht : t ∈ v.waiting)
    (hoffline : Event.threadOffline t ∉ evs) (hquiescent : Event.quiescent t ∉ evs) :
    t ∈ (evs.foldl apply v).waiting := by
  induction evs generalizing v with
  | nil => exact ht
  | cons ev evs ih =>
    rw [List.mem_cons, not_or] at hoffline hquiescent
    refine ih ?_ hoffline.2 hquiescent.2
    cases ev with
    | threadRegister u => exact ht
    | threadUnregister u => exact ht
    | threadOnline u => exact ht
    | threadOffline u =>
      refine Finset.mem_erase.2 ⟨?_, ht⟩
      rintro rfl
      exact hoffline.1 rfl
    | quiescent u =>
      refine Finset.mem_erase.2 ⟨?_, ht⟩
      rintro rfl
      exact hquiescent.1 rfl

/-- **The grace period.**  When `rte_rcu_qsbr_synchronize` returns, each registered thread that was online when
it was called has reported a quiescent state or gone offline since. -/
theorem synchronize_returns {v : Qsbr θ} {t : θ} {evs : List (Event θ)} (hregistered : t ∈ v.registered)
    (honline : t ∈ v.online) (hreturn : (evs.foldl apply v.synchronize).waiting = ∅) :
    Event.threadOffline t ∈ evs ∨ Event.quiescent t ∈ evs := by
  by_contra hnot
  obtain ⟨hoffline, hquiescent⟩ := not_or.1 hnot
  have hwaiting : t ∈ v.synchronize.waiting := Finset.mem_inter.2 ⟨hregistered, honline⟩
  have hmem := mem_waiting_foldl hwaiting hoffline hquiescent
  rw [hreturn] at hmem
  exact Finset.notMem_empty t hmem

end Qsbr

end DpdkBeginners.Rte
