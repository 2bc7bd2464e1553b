import DpdkBeginners.Rss.Defs
import Mathlib.Data.List.Count
import Mathlib.Data.List.Range
import Mathlib.Tactic.Common

/-!
# Who polls which receive queue

The queues `0, 1, …` go to the workers in their order and then to the main lcore, for as long as there are both
queues and lcores (`launch_lcores`, `launch_queues`).  So each queue is polled if and only if there is at
most one queue more than workers (`launch_iff`).  `af_packet_rss` configures its queues accordingly
(`usedRxQueues_le`); `rss_dpdk` configures four, however many workers there are.
-/

namespace DpdkBeginners.Rss

open DpdkBeginners.Rte

variable {eal : Eal} {lcores : Lcores} {n q : U16} {conf : PortConf} {r : Launched}

/-! ### What the launch does -/

theorem toNat_succ_of_lt (h : q < n) : (q + 1).toNat = q.toNat + 1 := by
  have hlt : q.toNat < n.toNat := h
  have hn := n.isLt
  have hone : (1 : U16).toNat = 1 := rfl
  rw [BitVec.toNat_add, hone, Nat.mod_eq_of_lt (by omega)]

/-- The loop over the workers, from any `q` on: the lcores, their queues and the last value of `q`. -/
theorem launchWorkers_spec (n : U16) (workers : List ℕ) (h : q ≤ n) :
    (launchWorkers n workers q).1.map Prod.fst = workers.take (n.toNat - q.toNat) ∧
      (launchWorkers n workers q).1.map (fun p => p.2.toNat) =
        List.range' q.toNat (min workers.length (n.toNat - q.toNat)) ∧
      (launchWorkers n workers q).2.toNat = q.toNat + min workers.length (n.toNat - q.toNat) := by
  induction workers generalizing q with
  | nil => simp [launchWorkers]
  | cons lcore workers ih =>
    have hle : q.toNat ≤ n.toNat := h
    by_cases hq : n ≤ q
    · have heq : n.toNat ≤ q.toNat := hq
      simp [launchWorkers, hq, Nat.sub_eq_zero_of_le heq]
    · have hlt : q.toNat < n.toNat := Nat.lt_of_not_le hq
      have hsucc := toNat_succ_of_lt (show q < n from hlt)
      obtain ⟨h₁, h₂, h₃⟩ := ih (q := q + 1) (show (q + 1).toNat ≤ n.toNat by omega)
      obtain ⟨m, hm⟩ : ∃ m, n.toNat - q.toNat = m + 1 := ⟨n.toNat - q.toNat - 1, by omega⟩
      have hm' : n.toNat - (q + 1).toNat = m := by omega
      rw [hm', hsucc] at h₂ h₃
      rw [hm'] at h₁
      simp only [launchWorkers, if_neg hq, hm, List.map_cons, List.take_succ_cons, List.length_cons,
        h₁, h₂, h₃, Nat.succ_min_succ, List.range'_succ]
      exact ⟨trivial, trivial, by omega⟩

theorem launchWorkers_zero (lcores : Lcores) (n : U16) :
    (launchWorkers n lcores.workers 0).1.map Prod.fst = lcores.workers.take n.toNat ∧
      (launchWorkers n lcores.workers 0).1.map (fun p => p.2.toNat) =
        List.range (min lcores.workers.length n.toNat) ∧
      (launchWorkers n lcores.workers 0).2.toNat = min lcores.workers.length n.toNat := by
  have h := launchWorkers_spec n lcores.workers (show 0 ≤ n from Nat.zero_le _)
  rwa [show (0 : U16).toNat = 0 from rfl, Nat.sub_zero, Nat.zero_add, ← List.range_eq_range'] at h

theorem main_polls_iff (lcores : Lcores) (n : U16) :
    (launchWorkers n lcores.workers 0).2 < n ↔ lcores.workers.length < n.toNat := by
  rw [BitVec.lt_def, (launchWorkers_zero lcores n).2.2]
  omega

theorem launch_lcores (lcores : Lcores) (n : U16) :
    (launch lcores n).map Prod.fst = (lcores.workers ++ [lcores.main]).take n.toNat := by
  have hfst := (launchWorkers_zero lcores n).1
  unfold launch
  simp only [main_polls_iff]
  split_ifs with hlt
  · rw [List.map_append, hfst, List.take_of_length_le hlt.le, List.take_of_length_le (by simpa)]
    rfl
  · rw [hfst, List.take_append_of_le_length (by omega)]

theorem launch_queues (lcores : Lcores) (n : U16) :
    (launch lcores n).map (fun p => p.2.toNat) =
      List.range (min (lcores.workers.length + 1) n.toNat) := by
  obtain ⟨-, hqueues, hlast⟩ := launchWorkers_zero lcores n
  unfold launch
  simp only [main_polls_iff]
  split_ifs with hlt
  · rw [List.map_append, hqueues, List.map_singleton, hlast, Nat.min_eq_left hlt.le,
      Nat.min_eq_left hlt, List.range_succ]
  · rw [hqueues, Nat.min_eq_right (by omega), Nat.min_eq_right (by omega)]

/-! ### Each queue polled once -/

/-- Each queue is polled by exactly one lcore, and no lcore polls two. -/
structure EachPolledOnce (r : Launched) : Prop where
  queue : ∀ q < r.rxQueues, (r.polls.map Prod.snd).count q = 1
  lcore : (r.polls.map Prod.fst).Nodup

theorem count_launch (lcores : Lcores) (n q : U16) :
    ((launch lcores n).map Prod.snd).count q =
      if q.toNat < min (lcores.workers.length + 1) n.toNat then 1 else 0 := by
  have hinj : Function.Injective (BitVec.toNat : U16 → ℕ) := fun _ _ => BitVec.eq_of_toNat_eq
  rw [← List.count_map_of_injective _ BitVec.toNat hinj, List.map_map,
    show (launch lcores n).map (BitVec.toNat ∘ Prod.snd) = _ from launch_queues lcores n]
  split_ifs with hq
  · exact List.count_eq_one_of_mem List.nodup_range (List.mem_range.2 hq)
  · exact List.count_eq_zero_of_not_mem fun hmem => hq (List.mem_range.1 hmem)

theorem nodup_launch (lcores : Lcores) (n : U16) : ((launch lcores n).map Prod.fst).Nodup := by
  have hnd : (lcores.workers ++ [lcores.main]).Nodup :=
    (List.perm_append_singleton _ _).nodup_iff.2 lcores.nodup
  rw [launch_lcores]
  exact hnd.sublist (List.take_sublist _ _)

/-- **The launch** covers the queues if and only if there is at most one more of them than workers. -/
theorem launch_iff (lcores : Lcores) (n : U16) :
    EachPolledOnce ⟨n, launch lcores n⟩ ↔ n.toNat ≤ lcores.workers.length + 1 := by
  constructor
  · intro h
    by_contra hlt
    -- the first queue for which no lcore is left
    have hn := n.isLt
    have hq : (BitVec.ofNat 16 (lcores.workers.length + 1)).toNat = lcores.workers.length + 1 := by
      rw [BitVec.toNat_ofNat, Nat.mod_eq_of_lt (by omega)]
    have hone := h.queue (BitVec.ofNat 16 (lcores.workers.length + 1)) (by
      show _ < n.toNat
      omega)
    rw [count_launch, if_neg (by omega)] at hone
    exact absurd hone (by decide)
  · intro hle
    refine ⟨fun q hq => ?_, nodup_launch lcores n⟩
    have hlt : q.toNat < n.toNat := hq
    rw [count_launch, if_pos (by omega)]

/-! ### What the programs configure -/

theorem bind_eq_ok {β : Type} {x : Except String Unit} {k : Unit → Except String β} {b : β} :
    (x >>= k) = .ok b ↔ x = .ok () ∧ k () = .ok b := by
  cases x with
  | error e => simp [bind, Except.bind]
  | ok u => simp [bind, Except.bind]

theorem exitIf_eq_ok {failed : Bool} {text : String} : exitIf failed text = .ok () ↔ failed = false := by
  cases failed <;> simp [exitIf]

theorem forM_eq_ok {f : ℕ → Except String Unit} {l : List ℕ} :
    l.forM f = .ok () ↔ ∀ q ∈ l, f q = .ok () := by
  induction l with
  | nil => simp [pure, Except.pure]
  | cons q l ih =>
    show (f q >>= fun _ => l.forM f) = .ok () ↔ _
    rw [bind_eq_ok, ih, List.forall_mem_cons]

/-- **A port is started** when the device accepts its queues, each of them can be set up and the start does
not fail. -/
theorem startPort_iff :
    startPort eal n conf = .ok r ↔
      0 ≤ eal.rteEthDevConfigure n conf ∧
        (∀ q < n.toNat, 0 ≤ eal.rteEthRxQueueSetup (BitVec.ofNat 16 q)) ∧
        0 ≤ eal.rteEthDevStart ∧ r = ⟨n, launch eal.lcores n⟩ := by
  unfold startPort
  rw [bind_eq_ok, bind_eq_ok, bind_eq_ok, forM_eq_ok]
  simp only [exitIf_eq_ok, decide_eq_false_iff_not, Int.not_lt, List.mem_range, pure, Except.pure,
    Except.ok.injEq, @eq_comm _ r]

theorem main_eq (h : main eal = .ok r) : r = ⟨rxQueues, launch eal.lcores rxQueues⟩ := by
  unfold main at h
  obtain ⟨-, h⟩ := bind_eq_ok.1 h
  obtain ⟨-, h⟩ := bind_eq_ok.1 h
  obtain ⟨-, h⟩ := bind_eq_ok.1 h
  exact (startPort_iff.1 h).2.2.2

theorem afPacketMain_eq (h : afPacketMain eal = .ok r) :
    r = ⟨usedRxQueues eal, launch eal.lcores (usedRxQueues eal)⟩ := by
  unfold afPacketMain at h
  obtain ⟨-, h⟩ := bind_eq_ok.1 h
  obtain ⟨-, h⟩ := bind_eq_ok.1 h
  obtain ⟨-, h⟩ := bind_eq_ok.1 h
  exact (startPort_iff.1 h).2.2.2

/-- `rte_lcore_count() - 1` as a 16-bit number is not above the number of workers. -/
theorem toNat_desired_le (lcores : Lcores) :
    ((rteLcoreCount lcores - 1).setWidth 16).toNat ≤ lcores.workers.length := by
  have hsub : rteLcoreCount lcores - 1 = BitVec.ofNat 32 lcores.workers.length := by
    unfold rteLcoreCount
    rw [BitVec.ofNat_add]
    exact BitVec.add_sub_cancel _ _
  rw [hsub, BitVec.toNat_setWidth, BitVec.toNat_ofNat]
  exact (Nat.mod_le _ _).trans (Nat.mod_le _ _)

/-- **The number of queues of `af_packet_rss`**: one at least, and else no more than there are workers or than
the device supports. -/
theorem usedRxQueues_le (eal : Eal) :
    (usedRxQueues eal).toNat ≤ max 1 (min eal.lcores.workers.length eal.maxRxQueues.toNat) := by
  have hle := toNat_desired_le eal.lcores
  unfold usedRxQueues
  generalize (rteLcoreCount eal.lcores - 1).setWidth 16 = desired at hle ⊢
  have hdesired : (if desired = 0 then 1 else desired).toNat ≤ max 1 eal.lcores.workers.length := by
    split_ifs
    · exact le_max_left _ _
    · exact hle.trans (le_max_right _ _)
  simp only
  generalize (if desired = 0 then 1 else desired) = desired at hdesired ⊢
  have hused : (if desired < eal.maxRxQueues then desired else eal.maxRxQueues).toNat =
      min desired.toNat eal.maxRxQueues.toNat := by
    split_ifs with hlt
    · exact (Nat.min_eq_left (Nat.le_of_lt hlt)).symm
    · exact (Nat.min_eq_right (Nat.le_of_not_lt hlt)).symm
  generalize (if desired < eal.maxRxQueues then desired else eal.maxRxQueues) = used at hused ⊢
  split_ifs
  · exact le_max_left _ _
  · omega

/-- **Polling.**  `rss_dpdk` polls each of its queues exactly if there is at most one more of them than
workers, and `af_packet_rss` always does. -/
theorem queues_polled (eal : Eal) :
    (∀ r, main eal = .ok r →
      (EachPolledOnce r ↔ rxQueues.toNat ≤ eal.lcores.workers.length + 1)) ∧
    ∀ r, afPacketMain eal = .ok r → EachPolledOnce r := by
  constructor
  · intro r h
    obtain rfl := main_eq h
    exact launch_iff eal.lcores rxQueues
  · intro r h
    have hle := usedRxQueues_le eal
    obtain rfl := afPacketMain_eq h
    exact (launch_iff _ _).2 (by omega)

/-- A device with eight queues, and nothing fails. -/
def readyEal (lcores : Lcores) : Eal where
  lcores := lcores
  rteEalInit := 0
  rteEthDevCountAvail := 1
  poolCreated := true
  maxRxQueues := 8
  rteEthDevConfigure := fun n _ => if 8 < n then -22 else 0
  rteEthRxQueueSetup := fun _ => 0
  rteEthDevStart := 0

/-- With the option `-l 0-4` of the documentation each worker polls a queue of `rss_dpdk`; `af_packet_rss`
is content with the main lcore. -/
theorem queues_polled_workers :
    EachPolledOnce ⟨4, [(1, 0), (2, 1), (3, 2), (4, 3)]⟩ ∧ EachPolledOnce ⟨1, [(0, 0)]⟩ :=
  ⟨((queues_polled (readyEal ⟨0, [1, 2, 3, 4], by decide⟩)).1 _ (by decide)).2 (by decide),
    (queues_polled (readyEal ⟨0, [], by decide⟩)).2 _ (by decide)⟩

/-- The option `-l 0-1`: four queues are configured and two of them are polled by nobody. -/
theorem queues_polled_fails :
    main (readyEal ⟨0, [1], by decide⟩) = .ok ⟨4, [(1, 0), (0, 1)]⟩ ∧
      ¬ EachPolledOnce ⟨4, [(1, 0), (0, 1)]⟩ :=
  ⟨by decide, fun h => absurd (h.queue 2 (by decide)) (by decide)⟩

end DpdkBeginners.Rss
