import DpdkBeginners.Forwarding.Ownership
import DpdkBeginners.Pool.Version4
import DpdkBeginners.Rte.Mempool

/-!
# What the forwarding loops lose over a run

The loops of `nat_project/version4` and `version5`, of `vxlan` and of `NAT/static_nat` offer or free each mbuf that they
receive, and forget what the transmit queue refuses.  So over a whole run their pools lose the refused mbufs and no
others, whatever the NAT does with the packets.
-/

namespace DpdkBeginners.Forwarding

open DpdkBeginners.Rte DpdkBeginners.Lib DpdkBeginners.Pool DpdkBeginners.Vxlan

variable {ι : Type*}

/-! ### `nat_project/version4` -/

/-- An iteration of the main loop of `version4`; each packet comes with the clock readings when it is processed. -/
def version4Iteration (E : Env) (tx : TxQueue ι) (pool : NatPool4) (bufs : List (ι × Mbuf × U64 × U64)) :
    NatPool4 × List (MbufOp ι) :=
  if 0 < bufs.length then
    let (pool, out) := natPoolApply4 E pool (bufs.map Prod.snd)
    let names := bufs.map Prod.fst
    (pool, (dropped names out).map .free ++ (kept names out).map fun m => tx.send [m])
  else (pool, [])

theorem length_natPoolApply4 (E : Env) (pool : NatPool4) (bufs : List (Mbuf × U64 × U64)) :
    (natPoolApply4 E pool bufs).2.length = bufs.length := by
  induction bufs generalizing pool with
  | nil => rfl
  | cons x bufs ih => rw [natPoolApply4, List.length_cons, List.length_cons, ih]

/-! ### Packets that the NAT keeps or drops -/

section Kept

variable {tx : TxQueue ι} {names : List ι} {out : List (Option Mbuf)}

/-- The calls of an iteration for what `nat_pool_apply` has left in the array. -/
def natOps (tx : TxQueue ι) (names : List ι) (out : List (Option Mbuf)) : List (MbufOp ι) :=
  (dropped names out).map .free ++ (kept names out).map fun m => tx.send [m]

theorem natOps_perm (h : out.length = names.length) :
    ((natOps tx names out).flatMap MbufOp.offered ++ (natOps tx names out).flatMap MbufOp.freed).Perm names := by
  unfold natOps
  rw [List.flatMap_append, List.flatMap_append, offered_frees, offered_singles, freed_frees, freed_singles,
    List.nil_append, List.append_nil]
  exact kept_dropped_perm h

theorem natOps_refused :
    (natOps tx names out).flatMap MbufOp.refused = (kept names out).filter fun m => tx.burst [m] = 0 := by
  unfold natOps
  rw [List.flatMap_append, refused_frees, refused_singles, List.nil_append]

end Kept

/-! ### The loops -/

/-- What an iteration starts with: the pool of the NAT, a clock reading, the answers of the transmit queue and the mbufs
with what comes with them. -/
structure NatRound (π ι α : Type*) where
  pool : π
  now : U64
  tx : TxQueue ι
  bufs : List (ι × α)

/-- The mbufs that it receives. -/
def NatRound.names {π α : Type*} (b : NatRound π ι α) : List ι := b.bufs.map Prod.fst

/-- What `nat_pool_apply` leaves in the array. -/
def out4 (E : Env) (b : NatRound NatPool4 ι (Mbuf × U64 × U64)) : List (Option Mbuf) :=
  (natPoolApply4 E b.pool (b.bufs.map Prod.snd)).2

def out5 (E : Env) (hz : U64) (b : NatRound NatPool ι (Mbuf × U64)) : List (Option Mbuf) :=
  (natPoolApply E (beforeApply hz b.now b.pool) (b.bufs.map Prod.snd)).2

theorem version4_ops (E : Env) (b : NatRound NatPool4 ι (Mbuf × U64 × U64)) :
    (version4Iteration E b.tx b.pool b.bufs).2 = natOps b.tx b.names (out4 E b) := by
  unfold version4Iteration
  split_ifs with hpos
  · rfl
  · have hnil : b.bufs = [] := List.length_eq_zero_iff.1 (Nat.eq_zero_of_not_pos hpos)
    rw [NatRound.names, hnil]
    rfl

theorem version5_ops (E : Env) (hz : U64) (b : NatRound NatPool ι (Mbuf × U64)) :
    (version5Iteration E hz b.now b.tx b.pool b.bufs).2 = natOps b.tx b.names (out5 E hz b) := by
  unfold version5Iteration
  split_ifs with hpos
  · rfl
  · have hnil : b.bufs = [] := List.length_eq_zero_iff.1 (Nat.eq_zero_of_not_pos hpos)
    rw [NatRound.names, hnil]
    rfl

theorem version4_perm (E : Env) (b : NatRound NatPool4 ι (Mbuf × U64 × U64)) :
    ((version4Iteration E b.tx b.pool b.bufs).2.flatMap MbufOp.offered ++
      (version4Iteration E b.tx b.pool b.bufs).2.flatMap MbufOp.freed).Perm b.names := by
  rw [version4_ops]
  apply natOps_perm
  rw [out4, length_natPoolApply4, NatRound.names, List.length_map, List.length_map]

theorem version5_perm (E : Env) (hz : U64) (b : NatRound NatPool ι (Mbuf × U64)) :
    ((version5Iteration E hz b.now b.tx b.pool b.bufs).2.flatMap MbufOp.offered ++
      (version5Iteration E hz b.now b.tx b.pool b.bufs).2.flatMap MbufOp.freed).Perm b.names := by
  rw [version5_ops]
  apply natOps_perm
  rw [out5, length_natPoolApply, NatRound.names, List.length_map, List.length_map]

/-- The main loop of `version4`, whatever the pool of the NAT is in each iteration. -/
def version4Loop (E : Env) : Loop (NatRound NatPool4 ι (Mbuf × U64 × U64)) ι where
  received := NatRound.names
  ops b := (version4Iteration E b.tx b.pool b.bufs).2
  gives b := given_le (version4_perm E b)

/-- The main loop of `version5` likewise. -/
def version5Loop (E : Env) (hz : U64) : Loop (NatRound NatPool ι (Mbuf × U64)) ι where
  received := NatRound.names
  ops b := (version5Iteration E hz b.now b.tx b.pool b.bufs).2
  gives b := given_le (version5_perm E hz b)

/-- The calls of an iteration of `vxlan`, which does not fail on what a driver delivers. -/
def vxlanOps (E : Env) (b : TxQueue ι × List (ι × RxPktmbuf)) : List (MbufOp ι) :=
  ((vxlanIteration E b.1 b.2).map Prod.snd).getD []

theorem vxlanOps_eq (E : Env) (b : TxQueue ι × List (ι × RxPktmbuf)) :
    vxlanOps E b = (b.2.map Prod.fst).map fun m => b.1.send [m] := by
  obtain ⟨pkts, hpkts⟩ := vxlanIteration_eq E b.1 b.2
  rw [vxlanOps, hpkts]
  rfl

theorem vxlan_perm (E : Env) (b : TxQueue ι × List (ι × RxPktmbuf)) :
    ((vxlanOps E b).flatMap MbufOp.offered ++ (vxlanOps E b).flatMap MbufOp.freed).Perm (b.2.map Prod.fst) := by
  rw [vxlanOps_eq, offered_singles, freed_singles, List.append_nil]

/-- The main loop of `vxlan`. -/
def vxlanLoop (E : Env) : Loop (TxQueue ι × List (ι × RxPktmbuf)) ι where
  received b := b.2.map Prod.fst
  ops := vxlanOps E
  gives b := given_le (vxlan_perm E b)

theorem staticNat_ops (E : Env) (b : TxQueue ι × List (ι × Mbuf)) (h : b.2 ≠ []) :
    (staticNatIteration E b.1 b.2).2 = [b.1.send (b.2.map Prod.fst)] := by
  rw [staticNatIteration, if_neg fun hlen => h (List.length_eq_zero_iff.1 hlen)]

theorem staticNat_perm (E : Env) (b : TxQueue ι × List (ι × Mbuf)) :
    ((staticNatIteration E b.1 b.2).2.flatMap MbufOp.offered ++
      (staticNatIteration E b.1 b.2).2.flatMap MbufOp.freed).Perm (b.2.map Prod.fst) := by
  by_cases h : b.2 = []
  · rw [h]
    exact .refl _
  · rw [staticNat_ops E b h]
    simp [TxQueue.send, MbufOp.offered, MbufOp.freed]

/-- The loop of `lcore_main` of `static_nat`. -/
def staticNatLoop (E : Env) : Loop (TxQueue ι × List (ι × Mbuf)) ι where
  received b := b.2.map Prod.fst
  ops b := (staticNatIteration E b.1 b.2).2
  gives b := given_le (staticNat_perm E b)

/-- **What the loops lose.**  In every run of each of the four loops the mbufs that the queue has refused are missing,
and no others; so there are no more of them than the pool has mbufs. -/
theorem loops_drain [DecidableEq ι] (E : Env) (hz : U64) :
    (version4Loop (ι := ι) E).Drains (fun b => ((kept b.names (out4 E b)).filter fun m => b.tx.burst [m] = 0).length) ∧
    (version5Loop (ι := ι) E hz).Drains
      (fun b => ((kept b.names (out5 E hz b)).filter fun m => b.tx.burst [m] = 0).length) ∧
    (vxlanLoop (ι := ι) E).Drains (fun b => ((b.2.map Prod.fst).filter fun m => b.1.burst [m] = 0).length) ∧
    (staticNatLoop (ι := ι) E).Drains fun b => b.2.length - b.1.burst (b.2.map Prod.fst) := by
  refine ⟨?_, ?_, ?_, ?_⟩
  · refine Loop.drains_of_perm (version4_perm E) fun b => ?_
    rw [← natOps_refused, ← version4_ops]
    rfl
  · refine Loop.drains_of_perm (version5_perm E hz) fun b => ?_
    rw [← natOps_refused, ← version5_ops]
    rfl
  · refine Loop.drains_of_perm (vxlan_perm E) fun b => ?_
    rw [← refused_singles, ← vxlanOps_eq]
    rfl
  · refine Loop.drains_of_perm (staticNat_perm E) fun b => ?_
    show ((staticNatIteration E b.1 b.2).2.flatMap MbufOp.refused).length = _
    by_cases h : b.2 = []
    · rw [h]
      exact (Nat.zero_sub _).symm
    · rw [staticNat_ops E b h]
      simp [TxQueue.send, MbufOp.refused]

end DpdkBeginners.Forwarding
