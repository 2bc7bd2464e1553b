import DpdkBeginners.Pool.Version4

/-!
# No address changes hands within the idle time

A public address that a packet of one host has left with is given to another host only when the first one has been
idle for the idle time (`address_not_reused`): until then its slot stays with it (`Held.of_run`), and the
addresses of the slots are different.  The same holds of `version4`, whose runs are runs of `version5`
(`address_not_reused4`).
-/

namespace DpdkBeginners.Pool

open DpdkBeginners.Rte DpdkBeginners.Lib

variable {E : Env} {p p₁ q : NatPool} {q₁ q₂ : NatPool4} {m m₁ m₂ r r₁ r₂ : Mbuf}
  {now now₁ now₁' now₂ now₂' t t₁ t₂ : U64} {slot : ℕ} {host : U32} {evs pre mid : List Event}
  {xs : List (Mbuf × U64 × U64)} {addr range : U32} {hz : U64} {statics : List (U32 × U32)}

/-! ### A slot that another host has now -/

/-- If a packet of another host leaves with the address of a slot, its host has lost the slot, and so it has been
idle. -/
theorem Held.idle_of_reused (hrun : Run (Step E) p evs q) (hq : Rep q)
    (hpub : ∀ i, (p.entries i).publicIp = slotAddr addr i) (h : Held p slot host)
    (hseen : (p.entries slot).lastSeenTsc = t₁) (hlater : ∀ ev ∈ evs, ∀ c ∈ ev.time, t₁ ≤ c)
    (hclock : Nondecreasing evs) (hend : NotAfter t₂ evs) (hreset : ∀ ev ∈ evs, ev ≠ .table ∧ ev ≠ .reset)
    (hip : m.IsIpv4) (hin : q.inboundMap m.dstAddr = none) (hr : (natApplyPacket E q t m).2 = some r)
    (hne : m.srcAddr ≠ host) (hsame : r.srcAddr = (p.entries slot).publicIp) : p.idleTsc ≤ t₂ - t₁ := by
  by_contra hlt
  have hheld : Held q slot host := by
    refine h.of_run hrun (BitVec.le_of_eq hseen.symm) ?_ hclock hend hreset (BitVec.not_le.1 hlt)
    rw [hseen]
    exact hlater
  -- both hosts hold the slot after the packet
  obtain ⟨slot', hheld', -, hr'⟩ := held_of_sent hq hip hin hr
  have hrun' : Run (Step E) p (evs ++ [.packet m t]) (natApplyPacket E q t m).1 := hrun.snoc rfl
  have hconf := run_sameConfig hrun'
  have hpacket : Event.packet m t ≠ .table ∧ Event.packet m t ≠ .reset := ⟨nofun, nofun⟩
  have hkept : Held (natApplyPacket E q t m).1 slot host :=
    (hheld.of_step (E := E) hpacket fun _ h => nomatch h).1
  have haddr : slotAddr addr slot' = slotAddr addr slot := by
    rw [← hpub, ← hpub, ← hconf.publicIp, ← hr', hsame]
  obtain rfl := slotAddr_injective (lt_trans hheld'.1 (BitVec.isLt _))
    (lt_trans hkept.1 (BitVec.isLt _)) haddr
  exact hne (hheld'.2.2.symm.trans hkept.2.2)

/-- **No address changes hands within the idle time**, in a run whose clock does not go backwards: if a packet of one
host was translated at `t₁`, and later, with no reset in between, one of another host is translated to the same
address, then the idle time has passed since `t₁`. -/
theorem address_not_reused (hpre : Run (Step E) (initPool addr range hz statics) pre p₁)
    (hmid : Run (Step E) (natApplyPacket E p₁ t₁ m₁).1 mid p)
    (hclock : Nondecreasing (.packet m₁ t₁ :: mid ++ [.packet m₂ t₂]))
    (hreset : ∀ ev ∈ mid, ev ≠ .table ∧ ev ≠ .reset)
    (hip₁ : m₁.IsIpv4) (hin₁ : p.inboundMap m₁.dstAddr = none)
    (hr₁ : (natApplyPacket E p₁ t₁ m₁).2 = some r₁)
    (hip₂ : m₂.IsIpv4) (hin₂ : p.inboundMap m₂.dstAddr = none)
    (hr₂ : (natApplyPacket E p t₂ m₂).2 = some r₂)
    (hne : m₁.srcAddr ≠ m₂.srcAddr) (hsame : r₁.srcAddr = r₂.srcAddr) :
    hz * idleTimeoutSec ≤ t₂ - t₁ := by
  have hpacket : Run (Step E) (initPool addr range hz statics) (pre ++ [.packet m₁ t₁])
      (natApplyPacket E p₁ t₁ m₁).1 := hpre.snoc rfl
  have hall := hpacket.append hmid
  have hidle : (natApplyPacket E p₁ t₁ m₁).1.idleTsc = hz * idleTimeoutSec := by
    rw [(run_sameConfig hpacket).idleTsc]
    obtain ⟨ib, h₀⟩ := initPool_eq addr range hz statics
    rw [h₀]
    rfl
  have hmap : (natApplyPacket E p₁ t₁ m₁).1.inboundMap = p₁.inboundMap :=
    (sameConfig_step E p₁ (.packet m₁ t₁)).inboundMap
  rw [(run_sameConfig hmid).inboundMap, hmap] at hin₁
  obtain ⟨slot, hheld, hseen, hr₁'⟩ := held_of_sent (run_rep hpre) hip₁ hin₁ hr₁
  have htime : (Event.packet m₁ t₁).time = some t₁ := rfl
  have htime₂ : (Event.packet m₂ t₂).time = some t₂ := rfl
  unfold Nondecreasing at hclock
  rw [List.cons_append, List.filterMap_cons_some htime, List.filterMap_append,
    List.filterMap_cons_some htime₂, List.filterMap_nil] at hclock
  obtain ⟨hlater, hrest⟩ := List.pairwise_cons.1 hclock
  obtain ⟨hmid', -, hend⟩ := List.pairwise_append.1 hrest
  rw [← hidle]
  refine hheld.idle_of_reused hmid (run_rep hall) (run_config hpacket).2.2 hseen ?_ hmid' ?_ hreset hip₂ hin₂
    hr₂ hne.symm ?_
  · intro ev hev c hc
    exact hlater c (List.mem_append.2 (.inl (List.mem_filterMap.2 ⟨ev, hev, hc⟩)))
  · intro ev hev c hc
    exact hend c (List.mem_filterMap.2 ⟨ev, hev, hc⟩) t₂ (List.mem_singleton.2 rfl)
  · rw [← hsame, hr₁']

/-! ### Two hosts, one after the other -/

theorem firstFree_startPool : FirstFree startPool 0 :=
  ⟨startPool_size_pos, by omega, rfl, fun j hj => absurd hj (by omega)⟩

/-- The pool after `hostA` has sent a packet and been idle for five seconds. -/
def expiredPool : NatPool := expiryTimerCb (assigned startPool 0 hostA 1000000000) 6000000000

theorem firstFree_expiredPool : FirstFree expiredPool 0 :=
  firstFree_zero_of_expired startPool_size_pos (.inr ⟨rfl, by decide⟩)

theorem outboundMap_expiredPool : expiredPool.outboundMap hostB = none :=
  outboundMap_expiryTimerCb 6000000000
    (Function.update_of_ne (show hostB ≠ hostA by decide) (some 0) startPool.outboundMap)

theorem config_expiredPool : SameConfig startPool expiredPool :=
  sameConfig_assigned.trans (released_expiryTimerCb _ _).config

/-- Five seconds after `hostA` has sent its only packet, `hostB` gets its address. -/
theorem address_not_reused_hostB : ∃ r₁ r₂,
    (natApplyPacket ghz startPool 1000000000 (frame hostA remote)).2 = some r₁ ∧
      (natApplyPacket ghz expiredPool 6000000000 (frame hostB remote)).2 = some r₂ ∧
      r₁.srcAddr = r₂.srcAddr ∧ 1000000000 * idleTimeoutSec ≤ (6000000000 : U64) - 1000000000 := by
  have hin : expiredPool.inboundMap (frame hostB remote).dstAddr = none :=
    congrFun config_expiredPool.inboundMap _
  have hin' : expiredPool.inboundMap (frame hostA remote).dstAddr = none :=
    congrFun config_expiredPool.inboundMap _
  have happ₁ : natApplyPacket ghz startPool 1000000000 (frame hostA remote) = _ :=
    natApplyPacket_assigned (frame_isIpv4 ..) rfl rfl firstFree_startPool
  have happ₂ : natApplyPacket ghz expiredPool 6000000000 (frame hostB remote) = _ :=
    natApplyPacket_assigned (frame_isIpv4 ..) hin (frame_srcAddr hostB remote ▸ outboundMap_expiredPool)
      firstFree_expiredPool
  have hmid : Run (Step ghz) (natApplyPacket ghz startPool 1000000000 (frame hostA remote)).1
      [.expiry 6000000000] expiredPool := by
    rw [happ₁, frame_srcAddr]
    exact Run.single_iff.2 rfl
  have hsame : (rewriteAndRecalc ghz (frame hostA remote) (startPool.entries 0).publicIp true).srcAddr =
      (rewriteAndRecalc ghz (frame hostB remote) (expiredPool.entries 0).publicIp true).srcAddr := by
    rw [rewriteSrc_srcAddr, rewriteSrc_srcAddr, config_expiredPool.publicIp]
  have hclock : Nondecreasing (.packet (frame hostA remote) 1000000000 :: [.expiry 6000000000] ++
      [.packet (frame hostB remote) 6000000000]) := by
    show List.Pairwise (· ≤ ·) [(1000000000 : U64), 6000000000, 6000000000]
    decide
  have hr₁ := congrArg Prod.snd happ₁
  have hr₂ := congrArg Prod.snd happ₂
  refine ⟨_, _, hr₁, hr₂, hsame, ?_⟩
  refine address_not_reused .refl hmid hclock ?_ (frame_isIpv4 ..) hin' hr₁ (frame_isIpv4 ..) hin hr₂ ?_ hsame
  · intro ev hev
    obtain rfl := List.mem_singleton.1 hev
    exact ⟨nofun, nofun⟩
  · rw [frame_srcAddr, frame_srcAddr]
    decide

/-! ### The clock of `version4` -/

/-- The clock readings of packets. -/
def times4 (xs : List (Mbuf × U64 × U64)) : List U64 := xs.flatMap fun x => [x.2.1, x.2.2]

theorem times4_sublist {fss : List (List Event)} (h : List.Forall₂ Matches4 xs fss) :
    (fss.flatten.filterMap Event.time).Sublist (times4 xs) := by
  induction h with
  | nil => exact List.Sublist.refl _
  | @cons x evs xs fss hx _ ih =>
    rw [List.flatten_cons, List.filterMap_append]
    refine List.Sublist.append ?_ ih
    rcases hx with rfl | rfl
    · exact (List.Sublist.refl [x.2.2]).cons x.2.1
    · exact List.Sublist.refl _

theorem not_reset_of_matches4 {fss : List (List Event)} (h : List.Forall₂ Matches4 xs fss) :
    ∀ ev ∈ fss.flatten, ev ≠ .table ∧ ev ≠ .reset := by
  induction h with
  | nil => exact nofun
  | @cons x evs xs fss hx _ ih =>
    intro ev hev
    rw [List.flatten_cons, List.mem_append] at hev
    rcases hev with hev | hev
    · rcases hx with rfl | rfl
      · obtain rfl := List.mem_singleton.1 hev
        exact ⟨nofun, nofun⟩
      · rcases List.mem_cons.1 hev with rfl | hev
        · exact ⟨nofun, nofun⟩
        · obtain rfl := List.mem_singleton.1 hev
          exact ⟨nofun, nofun⟩
    · exact ih ev hev

/-- **The same of `version4`**, where `now₁'` is the reading that the first packet has stored and `now₂` the one with
which the second packet looks for a slot. -/
theorem address_not_reused4 {mid : List (Mbuf × U64 × U64)}
    (hpre : Run (Step4 E) (natPoolCreate4 addr range hz) xs q₁)
    (hmid : Run (Step4 E) (natApplyPacket4 E q₁ now₁ now₁' m₁).1 mid q₂)
    (hclock : (now₁' :: (times4 mid ++ [now₂, now₂'])).Pairwise (· ≤ ·))
    (hip₁ : m₁.IsIpv4) (hr₁ : (natApplyPacket4 E q₁ now₁ now₁' m₁).2 = some r₁)
    (hip₂ : m₂.IsIpv4) (hr₂ : (natApplyPacket4 E q₂ now₂ now₂' m₂).2 = some r₂)
    (hne : m₁.srcAddr ≠ m₂.srcAddr) (hsame : r₁.srcAddr = r₂.srcAddr) : hz * 5 ≤ now₂ - now₁' := by
  obtain ⟨fss₁, p₁, -, hrun₁, rfl, hin₁⟩ := (refines_create addr range hz).of_run hpre
  obtain ⟨evs₁, -, hscan₁⟩ := run_scanned E p₁ now₁ m₁
  rw [natApplyPacket4_eq E hin₁] at hmid hr₁
  have hs₁ := hrun₁.append hscan₁
  have hpacket : Run (Step E) (initPool addr range hz []) (fss₁.flatten ++ evs₁ ++ [.packet m₁ now₁'])
      (natApplyPacket E (scanned p₁ now₁ m₁) now₁' m₁).1 := hs₁.snoc rfl
  have hempty := (run_sameConfig hpacket).inboundMap
  obtain ⟨fss, p₂, hfss, hrun₂, rfl, hin₂⟩ := Refines.of_run ⟨rfl, hempty⟩ hmid
  obtain ⟨evs₂, hevs₂, hscan₂⟩ := run_scanned E p₂ now₂ m₂
  rw [natApplyPacket4_eq E hin₂] at hr₂
  have hs₂ := hrun₂.append hscan₂
  have hall := hpacket.append hs₂
  have hstatic : ∀ {a : NatPool} {evs : List Event} (ip : U32), Run (Step E) (initPool addr range hz []) evs a →
      a.inboundMap ip = none := fun ip h => congrFun (run_sameConfig h).inboundMap ip
  obtain ⟨slot, hheld, hseen, hr₁'⟩ := held_of_sent (run_rep hs₁) hip₁ (hstatic _ hs₁) hr₁
  -- the clock readings of the two runs
  have hsub : ((fss.flatten ++ evs₂).filterMap Event.time).Sublist (times4 mid ++ [now₂]) := by
    rw [List.filterMap_append]
    refine (times4_sublist hfss).append ?_
    rcases hevs₂ with rfl | rfl
    · exact List.nil_sublist _
    · exact List.Sublist.refl _
  have hfront : (times4 mid ++ [now₂]).Sublist (times4 mid ++ [now₂, now₂']) :=
    (List.Sublist.refl _).append (List.sublist_append_left [now₂] [now₂'])
  obtain ⟨hlater, hrest⟩ := List.pairwise_cons.1 hclock
  obtain ⟨-, -, hend⟩ := List.pairwise_append.1 (hrest.sublist hfront)
  have hidle : (natApplyPacket E (scanned p₁ now₁ m₁) now₁' m₁).1.idleTsc = hz * 5 :=
    (run_sameConfig hpacket).idleTsc
  rw [← hidle]
  refine hheld.idle_of_reused hs₂ (run_rep hall) (run_config hpacket).2.2 hseen ?_
    (hrest.sublist (hsub.trans hfront)) ?_ ?_ hip₂ (hstatic _ hall) hr₂ hne.symm ?_
  · intro ev hev c hc
    exact hlater c ((hsub.trans hfront).subset (List.mem_filterMap.2 ⟨ev, hev, hc⟩))
  · intro ev hev c hc
    rcases List.mem_append.1 (hsub.subset (List.mem_filterMap.2 ⟨ev, hev, hc⟩)) with hmem | hmem
    · exact hend c hmem now₂ (List.mem_singleton.2 rfl)
    · exact BitVec.le_of_eq (List.mem_singleton.1 hmem)
  · intro ev hev
    rcases List.mem_append.1 hev with hev | hev
    · exact not_reset_of_matches4 hfss ev hev
    · rcases hevs₂ with rfl | rfl
      · cases hev
      · obtain rfl := List.mem_singleton.1 hev
        exact ⟨nofun, nofun⟩
  · rw [← hsame, hr₁']

theorem address_not_reused4_hostB : ∃ r₁ r₂,
    (natApplyPacket4 ghz (natPoolCreate4 mainStart 5 1000000000) 1000000000 1000000000
      (frame hostA remote)).2 = some r₁ ∧
      (natApplyPacket4 ghz (toVersion4 usedPool) 6000000000 6000000000 (frame hostB remote)).2 = some r₂ ∧
      r₁.srcAddr = r₂.srcAddr ∧ (1000000000 : U64) * 5 ≤ 6000000000 - 1000000000 := by
  have happ₁ : natApplyPacket4 ghz (toVersion4 startPool) 1000000000 1000000000 (frame hostA remote) = _ :=
    natApplyPacket4_zero ghz rfl (frame_isIpv4 ..) rfl startPool_size_pos (.inl rfl)
  have happ₂ : natApplyPacket4 ghz (toVersion4 usedPool) 6000000000 6000000000 (frame hostB remote) = _ :=
    natApplyPacket4_zero ghz config_usedPool.inboundMap (frame_isIpv4 ..)
      (frame_srcAddr hostB remote ▸ outboundMap_usedPool) (config_usedPool.poolSize ▸ startPool_size_pos)
      (.inr idle_usedPool)
  have hmid : Run (Step4 ghz) (natApplyPacket4 ghz (natPoolCreate4 mainStart 5 1000000000) 1000000000
      1000000000 (frame hostA remote)).1 [] (toVersion4 usedPool) :=
    Run.nil_iff.2 (Run.single_iff.1 run_usedPool).symm
  have hsame : (rewriteAndRecalc ghz (frame hostA remote) (startPool.entries 0).publicIp true).srcAddr =
      (rewriteAndRecalc ghz (frame hostB remote) (usedPool.entries 0).publicIp true).srcAddr := by
    rw [rewriteSrc_srcAddr, rewriteSrc_srcAddr, config_usedPool.publicIp]
  have hr₁ := congrArg Prod.snd happ₁
  have hr₂ := congrArg Prod.snd happ₂
  refine ⟨_, _, hr₁, hr₂, hsame, ?_⟩
  refine address_not_reused4 .refl hmid ?_ (frame_isIpv4 ..) hr₁ (frame_isIpv4 ..) hr₂ ?_ hsame
  · show List.Pairwise (· ≤ ·) [(1000000000 : U64), 6000000000, 6000000000]
    decide
  · rw [frame_srcAddr, frame_srcAddr]
    decide

end DpdkBeginners.Pool
