import DpdkBeginners.Pool.OnePass
import DpdkBeginners.Pool.Expiry

/-!
# The pool of `nat_project/version4`

`version4` has no timers and no static mappings: a packet of a host without a slot makes `find_free_slot`
release the idle slots first.  So a packet of `version4` is one of `version5`, after an expiry callback if the
host has no slot (`natApplyPacket4_eq`), and a run of `version4` is a run of `version5` without resets
(`Refines.of_run`).  What has been proved of these runs holds of `version4` as well (`version4_state`).
-/

namespace DpdkBeginners.Pool

open DpdkBeginners.Rte DpdkBeginners.Lib

variable {E : Env} {p : NatPool} {q q' : NatPool4} {m : Mbuf} {now now' : U64} {x : Mbuf × U64 × U64}
  {xs pre mid : List (Mbuf × U64 × U64)} {addr range : U32} {hz : U64}

/-! ### The functions -/

/-- `nat_pool_create` of `version4`, when no call in it fails; `addr` is what `inet_pton` stores for the start
address. -/
def natPoolCreate4 (addr range : U32) (hz : U64) : NatPool4 where
  entries i :=
    { privateIp := 0
      publicIp := rteCpuToBe32 (rteBeToCpu32 addr + BitVec.ofNat 32 i)
      lastSeenTsc := 0
      inUse := false }
  poolStartIp := rteBeToCpu32 addr
  poolSize := range
  idleTsc := hz * 5
  map := rteHashEmpty

/-- The end of the loop of `nat_pool_apply`: the checksums of a packet that has its new source. -/
def recalculate4 (E : Env) (m : Mbuf) : Mbuf :=
  let m₁ := m.setHdrChecksum 0
  let m₂ := m₁.setHdrChecksum (E.ipv4Cksum m₁.data ipOff)
  if m₂.nextProtoId = ipprotoTcp then
    let m₃ := m₂.setTcpCksum 0
    m₃.setTcpCksum (E.ipv4UdptcpCksum m₃.data ipOff l4Off)
  else if m₂.nextProtoId = ipprotoUdp then
    let m₃ := m₂.setDgramCksum 0
    m₃.setDgramCksum (E.ipv4UdptcpCksum m₃.data ipOff l4Off)
  else m₂

/-- Write slot `i`. -/
def NatPool4.setEntry (pool : NatPool4) (i : ℕ) (e : NatPoolEntry) : NatPool4 :=
  { pool with entries := Function.update pool.entries i e }

/-- The body of the loop of `nat_pool_apply`; `find_free_slot` reads `now`, and `now'` is the reading that is
stored.  `none` is a packet that was freed. -/
def natApplyPacket4 (E : Env) (pool : NatPool4) (now now' : U64) (m : Mbuf) : NatPool4 × Option Mbuf :=
  if ¬ m.IsIpv4 then (pool, some m)
  else
    match rteHashLookupData pool.map m.srcAddr with
    | some slot =>
      let pool := pool.setEntry slot { pool.entries slot with lastSeenTsc := now' }
      (pool, some (recalculate4 E (m.setSrcAddr (pool.entries slot).publicIp)))
    | none =>
      let (pool, slot) := findFreeSlot4 pool now
      if slot < 0 then (pool, none)
      else
        let i := slot.toNat
        let pool := pool.setEntry i
          { pool.entries i with privateIp := m.srcAddr, inUse := true, lastSeenTsc := now' }
        let pool := { pool with map := rteHashAddKeyData true pool.map m.srcAddr i }
        (pool, some (recalculate4 E (m.setSrcAddr (pool.entries i).publicIp)))

/-- `nat_pool_apply` of `version4`, with the clock readings of each packet. -/
def natPoolApply4 (E : Env) (pool : NatPool4) : List (Mbuf × U64 × U64) → NatPool4 × List (Option Mbuf)
  | [] => (pool, [])
  | (m, now, now') :: bufs =>
    let (pool, buf) := natApplyPacket4 E pool now now' m
    let (pool, rest) := natPoolApply4 E pool bufs
    (pool, buf :: rest)

/-- One packet, with the clock readings that it makes. -/
def Step4 (E : Env) (q : NatPool4) (x : Mbuf × U64 × U64) (q' : NatPool4) : Prop :=
  (natApplyPacket4 E q x.2.1 x.2.2 x.1).1 = q'

/-! ### One packet -/

theorem recalculate4_eq (E : Env) (m : Mbuf) (ip : U32) :
    recalculate4 E (m.setSrcAddr ip) = rewriteAndRecalc E m ip true := rfl

/-- The source has no slot, so that the packet makes `find_free_slot` look for one. -/
def Scans (p : NatPool) (m : Mbuf) : Prop := m.IsIpv4 ∧ p.outboundMap m.srcAddr = none

instance : Decidable (Scans p m) := inferInstanceAs (Decidable (_ ∧ _))

/-- The pool of `version5` when it comes to the packet. -/
def scanned (p : NatPool) (now : U64) (m : Mbuf) : NatPool :=
  if Scans p m then expiryTimerCb p now else p

theorem outboundMap_expiryTimerCb (now : U64) {ip : U32} (h : p.outboundMap ip = none) :
    (expiryTimerCb p now).outboundMap ip = none := by
  have hreleased := released_expiryTimerCb p now
  by_cases hidle : ∃ i < p.poolSize.toNat, Idle p now i ∧ (p.entries i).privateIp = ip
  · obtain ⟨i, hi, hii, rfl⟩ := hidle
    exact hreleased.removed i hi hii
  · rw [hreleased.kept ip fun i hi hii hip => hidle ⟨i, hi, hii, hip⟩]
    exact h

/-- **One packet of `version4`** is one of `version5`, after an expiry if the host has no slot. -/
theorem natApplyPacket4_eq (E : Env) (hin : p.inboundMap = rteHashEmpty) (now now' : U64) (m : Mbuf) :
    natApplyPacket4 E (toVersion4 p) now now' m =
      (toVersion4 (natApplyPacket E (scanned p now m) now' m).1,
        (natApplyPacket E (scanned p now m) now' m).2) := by
  unfold natApplyPacket4 scanned
  by_cases hip : m.IsIpv4
  · have hstatic : ∀ ip, p.inboundMap ip = none := fun ip => congrFun hin ip
    rw [if_neg (not_not.2 hip)]
    cases hs : p.outboundMap m.srcAddr with
    | some slot =>
      have hmap : rteHashLookupData (toVersion4 p).map m.srcAddr = some slot := hs
      rw [if_neg (fun h => by simpa [hs] using h.2), natApplyPacket_known hip (hstatic _) hs, hmap]
      simp [recalculate4_eq, NatPool4.setEntry, toVersion4, touched, NatPool.setEntry]
    | none =>
      have hmap : rteHashLookupData (toVersion4 p).map m.srcAddr = none := hs
      have hs' := outboundMap_expiryTimerCb now hs
      have hstatic' : (expiryTimerCb p now).inboundMap m.dstAddr = none := by
        rw [(released_expiryTimerCb p now).config.inboundMap]
        exact hstatic _
      rw [if_pos ⟨hip, hs⟩, hmap]
      simp only [onePass_eq]
      rcases firstFree_or_exhausted (expiryTimerCb p now) with ⟨slot, hfree⟩ | hex
      · have hneg : ¬ (slot : Int) < 0 := by omega
        rw [natApplyPacket_assigned hip hstatic' hs' hfree, hfree.findFreeSlot, if_neg hneg]
        simp [recalculate4_eq, NatPool4.setEntry, toVersion4, assigned, NatPool.setEntry]
      · rw [natApplyPacket_dropped hip hstatic' hs' hex, if_pos hex.findFreeSlot]
  · rw [if_pos hip, if_neg (fun h => hip h.1), natApplyPacket_notIpv4 hip]

/-! ### Runs -/

/-- The events that a packet may be. -/
def Matches4 (x : Mbuf × U64 × U64) (evs : List Event) : Prop :=
  evs = [.packet x.1 x.2.2] ∨ evs = [.expiry x.2.1, .packet x.1 x.2.2]

/-- The pool of `version4` is the part of the one of `version5`, which has no static mappings. -/
def Refines (q : NatPool4) (p : NatPool) : Prop := toVersion4 p = q ∧ p.inboundMap = rteHashEmpty

theorem refines_create (addr range : U32) (hz : U64) :
    Refines (natPoolCreate4 addr range hz) (initPool addr range hz []) := ⟨rfl, rfl⟩

theorem run_scanned (E : Env) (p : NatPool) (now : U64) (m : Mbuf) :
    ∃ evs, (evs = [] ∨ evs = [.expiry now]) ∧ Run (Step E) p evs (scanned p now m) := by
  unfold scanned
  by_cases hscans : Scans p m
  · rw [if_pos hscans]
    exact ⟨[.expiry now], .inr rfl, Run.single_iff.2 rfl⟩
  · rw [if_neg hscans]
    exact ⟨[], .inl rfl, .refl⟩

/-- A step of `version4` is one or two of `version5`. -/
theorem Refines.step (h : Refines q p) (hst : Step4 E q x q') :
    ∃ evs p', Matches4 x evs ∧ Run (Step E) p evs p' ∧ Refines q' p' := by
  obtain ⟨rfl, hin⟩ := h
  obtain ⟨m, now, now'⟩ := x
  obtain rfl : (natApplyPacket4 E (toVersion4 p) now now' m).1 = q' := hst
  obtain ⟨evs, hevs, hrun⟩ := run_scanned E p now m
  have hlast : Run (Step E) p (evs ++ [.packet m now']) (natApplyPacket E (scanned p now m) now' m).1 :=
    hrun.snoc rfl
  refine ⟨_, _, ?_, hlast, ?_, ?_⟩
  · rcases hevs with rfl | rfl
    · exact .inl rfl
    · exact .inr rfl
  · rw [natApplyPacket4_eq E hin]
  · rw [(run_sameConfig hlast).inboundMap]
    exact hin

theorem Refines.of_run (h : Refines q p) (hrun : Run (Step4 E) q xs q') :
    ∃ fss p', List.Forall₂ Matches4 xs fss ∧ Run (Step E) p fss.flatten p' ∧ Refines q' p' :=
  hrun.simulate h fun _ _ _ _ ha hst => ha.step hst

/-! ### A first packet -/

/-- Another private host. -/
def hostB : U32 := netAddr 192 168 1 51

/-- A pool of five addresses without static mappings. -/
def startPool : NatPool := initPool mainStart 5 1000000000 []

theorem startPool_size_pos : 0 < startPool.poolSize.toNat := by
  show 0 < (5 : U32).toNat
  decide

theorem firstFree_zero_of_expired (hsize : 0 < p.poolSize.toNat)
    (h : (p.entries 0).inUse = false ∨ Idle p now 0) : FirstFree (expiryTimerCb p now) 0 := by
  have hreleased := released_expiryTimerCb p now
  refine ⟨by rw [hreleased.config.poolSize]; exact hsize, by omega, ?_, fun j hj => absurd hj (by omega)⟩
  rw [hreleased.entries]
  by_cases hidle : Idle p now 0
  · rw [if_pos ⟨hsize, hidle⟩]
    rfl
  · rw [if_neg fun hx => hidle hx.2]
    exact h.resolve_right hidle

theorem natApplyPacket4_zero (E : Env) (hin : p.inboundMap = rteHashEmpty) (hip : m.IsIpv4)
    (hs : p.outboundMap m.srcAddr = none) (hsize : 0 < p.poolSize.toNat)
    (h : (p.entries 0).inUse = false ∨ Idle p now 0) :
    natApplyPacket4 E (toVersion4 p) now now m =
      (toVersion4 (assigned (expiryTimerCb p now) 0 m.srcAddr now),
        some (rewriteAndRecalc E m (p.entries 0).publicIp true)) := by
  have hconf := (released_expiryTimerCb p now).config
  have hstatic : (expiryTimerCb p now).inboundMap m.dstAddr = none := by
    rw [hconf.inboundMap]
    exact congrFun hin _
  rw [natApplyPacket4_eq E hin, scanned, if_pos ⟨hip, hs⟩, natApplyPacket_assigned hip hstatic
    (outboundMap_expiryTimerCb now hs) (firstFree_zero_of_expired hsize h), hconf.publicIp]

/-- The pool of `version4` after `hostA` has sent a packet, as one of `version5`. -/
def usedPool : NatPool := assigned (expiryTimerCb startPool 1000000000) 0 hostA 1000000000

theorem config_usedPool : SameConfig startPool usedPool :=
  (released_expiryTimerCb startPool 1000000000).config.trans sameConfig_assigned

theorem idle_usedPool : Idle usedPool 6000000000 0 := by
  refine ⟨rfl, ?_⟩
  rw [config_usedPool.idleTsc]
  decide

theorem outboundMap_usedPool : usedPool.outboundMap hostB = none := by
  have hnone : (expiryTimerCb startPool 1000000000).outboundMap hostB = none :=
    outboundMap_expiryTimerCb 1000000000 rfl
  exact (Function.update_of_ne (show hostB ≠ hostA by decide) (some 0) _).trans hnone

theorem run_usedPool : Run (Step4 ghz) (natPoolCreate4 mainStart 5 1000000000)
    [(frame hostA remote, 1000000000, 1000000000)] (toVersion4 usedPool) := by
  have happ : natApplyPacket4 ghz (toVersion4 startPool) 1000000000 1000000000 (frame hostA remote) = _ :=
    natApplyPacket4_zero ghz rfl (frame_isIpv4 ..) rfl startPool_size_pos (.inl rfl)
  rw [frame_srcAddr] at happ
  exact Run.single_iff.2 (congrArg Prod.fst happ)

/-! ### Every run -/

/-- **Every run of `version4` is a run of `version5`** without static mappings and resets: each packet is the packet of
`version5`, after an expiry at the first of its clock readings or after nothing.  The pool is the same, and what
becomes of the next packet. -/
theorem version4_refines (h : Run (Step4 E) (natPoolCreate4 addr range hz) xs q) :
    ∃ fss p, List.Forall₂ Matches4 xs fss ∧ Run (Step E) (initPool addr range hz []) fss.flatten p ∧
      toVersion4 p = q ∧ ∀ m now now', ∃ evs p', (evs = [] ∨ evs = [.expiry now]) ∧
        Run (Step E) p evs p' ∧ natApplyPacket4 E q now now' m =
          (toVersion4 (natApplyPacket E p' now' m).1, (natApplyPacket E p' now' m).2) := by
  obtain ⟨fss, p, hfss, hrun, rfl, hin⟩ := (refines_create addr range hz).of_run h
  refine ⟨fss, p, hfss, hrun, rfl, fun m now now' => ?_⟩
  obtain ⟨evs, hevs, hscan⟩ := run_scanned E p now m
  exact ⟨evs, _, hevs, hscan, natApplyPacket4_eq E hin now now' m⟩

theorem version4_refines_usedPool : ∃ p evs p', toVersion4 p = toVersion4 usedPool ∧
    (evs = [] ∨ evs = [.expiry 6000000000]) ∧ Run (Step ghz) p evs p' ∧
    natApplyPacket4 ghz (toVersion4 usedPool) 6000000000 6000000000 (frame hostB remote) =
      (toVersion4 (natApplyPacket ghz p' 6000000000 (frame hostB remote)).1,
        (natApplyPacket ghz p' 6000000000 (frame hostB remote)).2) := by
  obtain ⟨fss, p, -, -, hp, hnext⟩ := version4_refines run_usedPool
  obtain ⟨evs, p', hevs, hrun, happ⟩ := hnext (frame hostB remote) 6000000000 6000000000
  exact ⟨p, evs, p', hp, hevs, hrun, happ⟩

/-! ### The state of a run -/

theorem exhausted_expiryTimerCb_iff (hsize : p.poolSize.toNat < 2 ^ 31) :
    Exhausted (expiryTimerCb p now) ↔ ∀ i < p.poolSize.toNat, (p.entries i).inUse = true ∧
      now - (p.entries i).lastSeenTsc < p.idleTsc := by
  have hreleased := released_expiryTimerCb p now
  unfold Exhausted
  rw [hreleased.config.poolSize]
  refine forall₂_congr fun i hi => ?_
  rw [hreleased.entries]
  by_cases hidle : Idle p now i
  · rw [if_pos ⟨hi, hidle⟩]
    refine iff_of_false (fun h => ?_) fun h => absurd hidle.2 (BitVec.not_le.2 h.2)
    exact Bool.noConfusion (h (by omega))
  · rw [if_neg fun h => hidle h.2]
    constructor
    · intro h
      have hused := h (by omega)
      exact ⟨hused, BitVec.not_le.1 fun hle => hidle ⟨hused, hle⟩⟩
    · exact fun h _ => h.1

/-- **The pool of `version4`**, in every state of a run: the map holds exactly the slots in use.  A packet is dropped if
and only if its source has no slot and every slot has been used within the idle time; otherwise it leaves
with the address of a slot, which its source then holds, and its destination. -/
theorem version4_state (h : Run (Step4 E) (natPoolCreate4 addr range hz) xs q) (hsize : range.toNat < 2 ^ 31)
    (hip : m.IsIpv4) :
    (∀ ip i, q.map ip = some i ↔ i < range.toNat ∧ (q.entries i).inUse = true ∧
      (q.entries i).privateIp = ip) ∧
    ((natApplyPacket4 E q now now' m).2 = none ↔ q.map m.srcAddr = none ∧
      ∀ i < range.toNat, (q.entries i).inUse = true ∧ now - (q.entries i).lastSeenTsc < hz * 5) ∧
    ∀ r, (natApplyPacket4 E q now now' m).2 = some r → r.dstAddr = m.dstAddr ∧
      ∃ i, r.srcAddr = slotAddr addr i ∧ (natApplyPacket4 E q now now' m).1.map m.srcAddr = some i := by
  obtain ⟨fss, p, -, hrun, rfl, hin⟩ := (refines_create addr range hz).of_run h
  obtain ⟨evs, -, hscan⟩ := run_scanned E p now m
  have hscanned := hrun.append hscan
  have hsize' : p.poolSize = range := (run_config hrun).1
  have hidle : p.idleTsc = hz * 5 := (run_sameConfig hrun).idleTsc
  have hstatic : (scanned p now m).inboundMap m.dstAddr = none :=
    congrFun (run_sameConfig hscanned).inboundMap _
  have hpub := (run_config hscanned).2.2
  refine ⟨fun ip i => ?_, ?_⟩
  · rw [← hsize']
    exact (run_rep hrun).iff
  rw [natApplyPacket4_eq E hin]
  by_cases hscans : p.outboundMap m.srcAddr = none
  · -- the source has no slot
    have heq : scanned p now m = expiryTimerCb p now := if_pos ⟨hip, hscans⟩
    rw [heq] at hstatic hpub ⊢
    have hs := outboundMap_expiryTimerCb now hscans
    have hex : Exhausted (expiryTimerCb p now) ↔ _ := exhausted_expiryTimerCb_iff (hsize' ▸ hsize)
    rw [hsize', hidle] at hex
    rcases firstFree_or_exhausted (expiryTimerCb p now) with ⟨slot, hfree⟩ | hexhausted
    · rw [natApplyPacket_assigned hip hstatic hs hfree]
      refine ⟨iff_of_false nofun fun hall => hfree.not_exhausted (hex.2 hall.2), ?_⟩
      intro r hr
      obtain rfl := Option.some.inj hr
      exact ⟨rewriteSrc_dstAddr .., slot, by rw [rewriteSrc_srcAddr, hpub], Function.update_self ..⟩
    · rw [natApplyPacket_dropped hip hstatic hs hexhausted]
      exact ⟨iff_of_true rfl ⟨hscans, hex.1 hexhausted⟩, nofun⟩
  · have heq : scanned p now m = p := if_neg fun hx => hscans hx.2
    rw [heq] at hstatic hpub ⊢
    obtain ⟨slot, hs⟩ := Option.ne_none_iff_exists'.1 hscans
    rw [natApplyPacket_known hip hstatic hs]
    refine ⟨iff_of_false nofun fun hall => hscans hall.1, ?_⟩
    intro r hr
    obtain rfl := Option.some.inj hr
    exact ⟨rewriteSrc_dstAddr .., slot, by rw [rewriteSrc_srcAddr, hpub], hs⟩

/-- The packet of another host is not dropped: only one slot is in use. -/
theorem version4_state_usedPool :
    (natApplyPacket4 ghz (toVersion4 usedPool) 2000000000 2000000000 (frame hostB remote)).2 ≠ none := by
  intro hnone
  have hstate := @version4_state ghz _ (frame hostB remote) 2000000000 2000000000 _ _ _ _ run_usedPool
    (by decide) (frame_isIpv4 hostB remote)
  have hiff := hstate.2.1
  have hused : (usedPool.entries 1).inUse = true := ((hiff.1 hnone).2 1 (by decide)).1
  rw [show usedPool.entries 1 = (expiryTimerCb startPool 1000000000).entries 1 from rfl,
    (released_expiryTimerCb startPool 1000000000).entries, if_neg fun h => by cases h.2.1] at hused
  cases hused

end DpdkBeginners.Pool
