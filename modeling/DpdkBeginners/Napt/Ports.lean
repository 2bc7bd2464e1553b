import DpdkBeginners.Napt.Defs
import Mathlib.Logic.Function.Iterate

/-!
# The cycle of public ports

`nextPort` walks the ports from `MIN_PORT` to `MAX_PORT - 1` in a cycle: after any number of
allocations the counter is the number of steps, taken modulo the length of the cycle
(`iterate_nextPort`).
-/

namespace DpdkBeginners.Napt

open DpdkBeginners.Rte

/-- How many ports the cycle has: `MAX_PORT - MIN_PORT`. -/
def portCycle : ℕ := 64511

/-- The counter is a port of the cycle. -/
def InCycle (c : U16) : Prop := 1024 ≤ c.toNat ∧ c.toNat < 1024 + portCycle

theorem inCycle_iff {c : U16} : InCycle c ↔ minPort ≤ c ∧ c ≤ maxPort - 1 := by
  show _ ↔ 1024 ≤ c.toNat ∧ c.toNat ≤ 65534
  unfold InCycle portCycle
  omega

theorem inCycle_minPort : InCycle minPort := by unfold InCycle portCycle minPort; decide

theorem InCycle.toNat_add_one {c : U16} (h : InCycle c) : (c + 1).toNat = c.toNat + 1 := by
  unfold InCycle portCycle at h
  rw [BitVec.toNat_add]
  exact Nat.mod_eq_of_lt (by simp; omega)

theorem nextPort_toNat {c : U16} (h : InCycle c) :
    (nextPort c).toNat = if c.toNat + 1 = 1024 + portCycle then 1024 else c.toNat + 1 := by
  have hadd := h.toNat_add_one
  unfold InCycle portCycle at *
  have hle : maxPort ≤ c + 1 ↔ c.toNat + 1 = 65535 := by
    rw [BitVec.le_def, hadd]
    show 65535 ≤ c.toNat + 1 ↔ _
    omega
  unfold nextPort
  by_cases hmax : c.toNat + 1 = 65535
  · rw [if_pos (hle.2 hmax), if_pos hmax]
    rfl
  · rw [if_neg fun h' => hmax (hle.1 h'), if_neg hmax, hadd]

theorem InCycle.nextPort {c : U16} (h : InCycle c) : InCycle (nextPort c) := by
  unfold InCycle
  rw [nextPort_toNat h]
  unfold InCycle portCycle at *
  split <;> omega

/-- **The port after `n` allocations.** -/
theorem iterate_nextPort {c : U16} (h : InCycle c) (n : ℕ) :
    InCycle (nextPort^[n] c) ∧
      (nextPort^[n] c).toNat = 1024 + (c.toNat - 1024 + n) % portCycle := by
  induction n with
  | zero =>
    refine ⟨h, ?_⟩
    unfold InCycle at h
    rw [Function.iterate_zero, id, Nat.add_zero, Nat.mod_eq_of_lt (by omega)]
    omega
  | succ n ih =>
    obtain ⟨hin, hn⟩ := ih
    rw [Function.iterate_succ_apply']
    refine ⟨hin.nextPort, ?_⟩
    rw [nextPort_toNat hin, hn]
    unfold portCycle
    split <;> omega

/-- Fewer allocations than a whole cycle do not come back to the same port. -/
theorem iterate_nextPort_ne {c : U16} (h : InCycle c) {i j : ℕ} (hij : i < j)
    (hlt : j - i < portCycle) : nextPort^[i] c ≠ nextPort^[j] c := by
  intro heq
  have hi := (iterate_nextPort h i).2
  have hj := (iterate_nextPort h j).2
  rw [heq, hj] at hi
  unfold portCycle at *
  omega

theorem exists_iterate_nextPort {c p : U16} (h : InCycle c) (hp : InCycle p) :
    ∃ i < portCycle, nextPort^[i] c = p := by
  refine ⟨(p.toNat + portCycle - c.toNat) % portCycle, Nat.mod_lt _ (by decide), ?_⟩
  apply BitVec.eq_of_toNat_eq
  rw [(iterate_nextPort h _).2]
  unfold InCycle portCycle at *
  omega

theorem iterate_portCycle {c : U16} (h : InCycle c) : nextPort^[portCycle] c = c := by
  apply BitVec.eq_of_toNat_eq
  rw [(iterate_nextPort h portCycle).2, Nat.add_mod_right, Nat.mod_eq_of_lt]
  · unfold InCycle at h
    omega
  · unfold InCycle at h
    omega

end DpdkBeginners.Napt
