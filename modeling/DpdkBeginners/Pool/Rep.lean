import DpdkBeginners.Pool.Slots

/-!
# The representation invariant

`Rep`: `outbound_map` holds exactly the slots in use, each under the private address it is given to.
Every step keeps it, so it holds after every sequence of calls (`outbound_map_bijection`); a burst is
the sequence of its packets (`natPoolApply_run`).

The public addresses of the slots are consecutive and pairwise different (`slotAddr_injective`), so an
exact map is all that is needed for no address to be given away twice.
-/

namespace DpdkBeginners.Pool

open DpdkBeginners.Rte DpdkBeginners.Lib

variable {E : Env} {p q : NatPool} {m : Mbuf} {now : U64} {i j slot : ℕ} {e : NatPoolEntry}
  {ip src pub : U32}
  {ev : Event} {evs : List Event} {addr range : U32} {hz : U64} {statics : List (U32 × U32)}

/-! ### The invariant -/

/-- `outbound_map` holds exactly the slots in use. -/
abbrev Rep (p : NatPool) : Prop := Exact (live p) NatPoolEntry.privateIp p.outboundMap

theorem Rep.iff (hp : Rep p) : p.outboundMap ip = some slot ↔
    slot < p.poolSize.toNat ∧ (p.entries slot).inUse = true ∧ (p.entries slot).privateIp = ip := by
  rw [hp]
  constructor
  · rintro ⟨e, he, rfl⟩
    obtain ⟨hi, hu, rfl⟩ := live_eq_some.1 he
    exact ⟨hi, hu, rfl⟩
  · rintro ⟨hi, hu, rfl⟩
    exact ⟨_, live_eq_some.2 ⟨hi, hu, rfl⟩, rfl⟩

theorem Rep.touched (hp : Rep p) (hs : p.outboundMap ip = some slot) : Rep (touched p slot now) := by
  obtain ⟨e, he, -⟩ := hp.sound ip slot hs
  obtain ⟨hi, hu, rfl⟩ := live_eq_some.1 he
  unfold Rep
  show Exact (live (p.setEntry slot _)) _ p.outboundMap
  rw [live_setEntry hi, if_pos hu]
  exact hp.modify he rfl

theorem Rep.assigned (hp : Rep p) (hfree : FirstFree p slot) (hs : p.outboundMap src = none) :
    Rep (assigned p slot src now) := by
  obtain ⟨hi, -, hu, -⟩ := hfree
  unfold Rep
  show Exact (live (p.setEntry slot _)) _ (Function.update p.outboundMap src (some slot))
  rw [live_setEntry hi, if_pos rfl]
  exact hp.add (live_eq_none hu) fun q f hf => hp.key_ne hs hf

theorem Rep.expireSlot (hp : Rep p) (hi : i < p.poolSize.toNat) : Rep (expireSlot p now i) := by
  by_cases hidle : Idle p now i
  · rw [expireSlot_idle hidle]
    unfold Rep
    show Exact (live (p.setEntry i _)) _ (Function.update p.outboundMap _ none)
    rw [live_setEntry hi, if_neg (by simp [NatPoolEntry.release])]
    exact hp.free (live_eq_some.2 ⟨hi, hidle.1, rfl⟩)
  · rw [expireSlot_not_idle hidle]
    exact hp

theorem expireSlot_poolSize : (expireSlot p now i).poolSize = p.poolSize := by
  by_cases hidle : Idle p now i
  · rw [expireSlot_idle hidle]
    rfl
  · rw [expireSlot_not_idle hidle]

theorem Rep.expiryTimerCb (hp : Rep p) : Rep (expiryTimerCb p now) := by
  unfold Pool.expiryTimerCb
  refine (List.foldlRecOn (motive := fun q => Rep q ∧ q.poolSize = p.poolSize) _ _ ⟨hp, rfl⟩ ?_).1
  rintro q ⟨hq, hsize⟩ i hi
  refine ⟨hq.expireSlot ?_, expireSlot_poolSize.trans hsize⟩
  rw [hsize]
  exact List.mem_range.1 hi

theorem rep_clearEntries (p : NatPool) (b : Bool) :
    Rep { clearEntries p with outboundMap := rteHashEmpty, started := b } :=
  exact_empty (live_clearEntries p)

/-- **A step keeps the invariant.** -/
theorem Rep.of_step (hp : Rep p) : Rep (step E p ev) := by
  cases ev with
  | packet m now =>
    show Rep (natApplyPacket E p now m).1
    cases h : natApplyPacket E p now m with
    | mk q out =>
      have hcase := natApplyPacket_cases E p now m
      rw [h] at hcase
      cases hcase with
      | notIpv4 => exact hp
      | static => exact hp
      | known _ _ hs => exact hp.touched hs
      | assigned _ _ hs hfree => exact hp.assigned hfree hs
      | dropped => exact hp
  | expiry now => exact hp.expiryTimerCb
  | table => exact rep_clearEntries _ _
  | arm => exact hp
  | reset => exact rep_clearEntries _ _

/-! ### What never changes -/

theorem sameConfig_step (E : Env) (p : NatPool) (ev : Event) : SameConfig p (step E p ev) := by
  have hclear : ∀ (q : NatPool) (b : Bool), SameConfig p q →
      SameConfig p { clearEntries q with outboundMap := rteHashEmpty, started := b } := by
    intro q b hq
    obtain ⟨h₁, h₂, h₃, h₄⟩ := hq.trans (clearEntries_entries q).2
    exact ⟨h₁, h₂, h₃, h₄⟩
  cases ev with
  | packet m now =>
    show SameConfig p (natApplyPacket E p now m).1
    cases h : natApplyPacket E p now m with
    | mk q out =>
      have hcase := natApplyPacket_cases E p now m
      rw [h] at hcase
      cases hcase with
      | notIpv4 => exact .refl p
      | static => exact .refl p
      | known => exact sameConfig_touched
      | assigned => exact sameConfig_assigned
      | dropped => exact .refl p
  | expiry now => exact (released_expiryTimerCb p now).config
  | table => exact hclear _ _ ⟨rfl, rfl, rfl, fun _ => rfl⟩
  | arm => exact ⟨rfl, rfl, rfl, fun _ => rfl⟩
  | reset => exact hclear _ _ ⟨rfl, rfl, rfl, fun _ => rfl⟩

theorem run_sameConfig (h : Run (Step E) p evs q) : SameConfig p q := by
  refine h.invariant (I := fun a => SameConfig p a) (.refl p) ?_
  rintro a f b ha rfl
  exact ha.trans (sameConfig_step E a f)

/-! ### The pool at the start -/

theorem initPool_eq (addr range : U32) (hz : U64) (statics : List (U32 × U32)) :
    ∃ ib, initPool addr range hz statics = { newPool addr range hz with inboundMap := ib } := by
  unfold initPool
  refine List.foldlRecOn (motive := fun q : NatPool => ∃ ib, q = { newPool addr range hz with
    inboundMap := ib }) _ _ ⟨rteHashEmpty, rfl⟩ ?_
  rintro q ⟨ib, rfl⟩ x -
  exact ⟨_, rfl⟩

theorem rep_initPool : Rep (initPool addr range hz statics) := by
  obtain ⟨ib, h⟩ := initPool_eq addr range hz statics
  rw [h]
  exact exact_empty fun i => live_eq_none rfl

theorem run_rep (h : Run (Step E) (initPool addr range hz statics) evs p) : Rep p := by
  refine h.invariant rep_initPool ?_
  rintro a f b ha rfl
  exact ha.of_step

/-! ### Public addresses -/

/-- The public address of slot `i` in a pool that starts at `addr`. -/
def slotAddr (addr : U32) (i : ℕ) : U32 := rteCpuToBe32 (rteBeToCpu32 addr + BitVec.ofNat 32 i)

theorem slotAddr_injective {addr : U32} (hi : i < 2 ^ 32) (hj : j < 2 ^ 32)
    (h : slotAddr addr i = slotAddr addr j) : i = j := by
  have hadd := bswap32_injective h
  have hofNat : BitVec.ofNat 32 i = BitVec.ofNat 32 j := BitVec.add_right_inj _ |>.1 hadd
  have hnat := congrArg BitVec.toNat hofNat
  rwa [BitVec.toNat_ofNat, BitVec.toNat_ofNat, Nat.mod_eq_of_lt hi, Nat.mod_eq_of_lt hj] at hnat

theorem run_config (h : Run (Step E) (initPool addr range hz statics) evs p) :
    p.poolSize = range ∧ p.inboundMap = (initPool addr range hz statics).inboundMap ∧
      ∀ i, (p.entries i).publicIp = slotAddr addr i := by
  obtain ⟨hsize, -, hin, hpub⟩ := run_sameConfig h
  obtain ⟨ib, h₀⟩ := initPool_eq addr range hz statics
  refine ⟨?_, hin, ?_⟩
  · rw [hsize, h₀]
    rfl
  · intro i
    rw [hpub, h₀]
    rfl

/-- The private host `ip` holds the public address `pub`. -/
def Holds (p : NatPool) (ip pub : U32) : Prop :=
  ∃ i < p.poolSize.toNat, (p.entries i).inUse = true ∧ (p.entries i).privateIp = ip ∧
    (p.entries i).publicIp = pub

/-! ### Configurations -/

/-- The mappings of `nat_inbound.txt`. -/
def inboundTxt : List (U32 × U32) :=
  [(netAddr 203 0 113 1, netAddr 192 168 1 10), (netAddr 203 0 113 2, netAddr 192 168 1 11),
    (netAddr 203 0 113 3, netAddr 192 168 1 12)]

/-- A pool of five addresses with these mappings, as in `main.c` and in `nat.txt`. -/
def fivePool (addr : U32) : NatPool := initPool addr 5 1000000000 inboundTxt

/-- The start of the pool in `main.c`. -/
def mainStart : U32 := netAddr 203 0 113 10

/-- The start of the pool in `nat.txt`, which is a static address, too. -/
def txtStart : U32 := netAddr 203 0 113 1

/-- A private host, and one that is not. -/
def hostA : U32 := netAddr 192 168 1 50
def remote : U32 := netAddr 8 8 8 8

theorem firstFree_fivePool (addr : U32) : FirstFree (fivePool addr) 0 :=
  ⟨by show 0 < (5 : U32).toNat; decide, by decide, rfl, fun j hj => absurd hj (by omega)⟩

/-- The pool after `hostA` has sent a packet. -/
def fivePoolA (addr : U32) : NatPool := assigned (fivePool addr) 0 hostA 1000000000

theorem natApplyPacket_fivePool (E : Env) (addr : U32) :
    natApplyPacket E (fivePool addr) 1000000000 (frame hostA remote) = (fivePoolA addr,
      some (rewriteAndRecalc E (frame hostA remote) ((fivePool addr).entries 0).publicIp true)) := by
  have hin : (fivePool addr).inboundMap (frame hostA remote).dstAddr = none := by
    rw [frame_dstAddr]
    rfl
  have happ : natApplyPacket E (fivePool addr) 1000000000 (frame hostA remote) = _ :=
    natApplyPacket_assigned (frame_isIpv4 ..) hin rfl (firstFree_fivePool addr)
  rw [happ, frame_srcAddr]
  rfl

theorem run_fivePoolA (addr : U32) :
    Run (Step ghz) (fivePool addr) [.packet (frame hostA remote) 1000000000] (fivePoolA addr) :=
  Run.single_iff.2 (congrArg Prod.fst (natApplyPacket_fivePool ghz addr))

theorem holds_fivePoolA (addr : U32) : Holds (fivePoolA addr) hostA (slotAddr addr 0) :=
  ⟨0, by show 0 < (5 : U32).toNat; decide, rfl, rfl, rfl⟩

/-! ### Calls are runs -/

theorem natPoolApply_run (E : Env) (p : NatPool) (bufs : List (Mbuf × U64)) :
    Run (Step E) p (bufs.map fun x => .packet x.1 x.2) (natPoolApply E p bufs).1 := by
  induction bufs generalizing p with
  | nil => exact .refl
  | cons x bufs ih => exact Run.cons_iff.2 ⟨_, rfl, ih _⟩

theorem natPoolApply_cons (E : Env) (p : NatPool) (x : Mbuf × U64) (bufs : List (Mbuf × U64)) :
    natPoolApply E p (x :: bufs) =
      ((natPoolApply E (natApplyPacket E p x.2 x.1).1 bufs).1,
        (natApplyPacket E p x.2 x.1).2 ::
          (natPoolApply E (natApplyPacket E p x.2 x.1).1 bufs).2) := rfl

/-- The buffer of a packet is what becomes of it in the pool that the packets before it leave behind. -/
theorem natPoolApply_append (E : Env) (p : NatPool) (xs ys : List (Mbuf × U64)) :
    natPoolApply E p (xs ++ ys) =
      ((natPoolApply E (natPoolApply E p xs).1 ys).1,
        (natPoolApply E p xs).2 ++ (natPoolApply E (natPoolApply E p xs).1 ys).2) := by
  induction xs generalizing p with
  | nil => rfl
  | cons x xs ih =>
    rw [List.cons_append, natPoolApply_cons, natPoolApply_cons, ih, List.cons_append]

theorem exec_run (E : Env) (p : NatPool) (c : Call) : Run (Step E) p c.events (exec E p c) := by
  cases c with
  | natPoolApply bufs => exact natPoolApply_run E p bufs
  | expiryTimerCb now => exact Run.single_iff.2 rfl
  | tableTimerCb => exact Run.single_iff.2 rfl
  | natTableTimerArm => exact Run.single_iff.2 rfl
  | natPoolReset => exact Run.single_iff.2 rfl

theorem calls_run (E : Env) (p : NatPool) (calls : List Call) :
    Run (Step E) p (calls.flatMap Call.events) (calls.foldl (exec E) p) := by
  induction calls generalizing p with
  | nil => exact .refl
  | cons c calls ih =>
    rw [List.flatMap_cons]
    exact (exec_run E p c).append (ih _)

/-- `outbound_map` and the slots in use are in bijection; no private host holds two public addresses, and
no public address is held by two hosts. -/
structure Bijection (p : NatPool) : Prop where
  map_iff : ∀ ip slot, p.outboundMap ip = some slot ↔
    slot < p.poolSize.toNat ∧ (p.entries slot).inUse = true ∧ (p.entries slot).privateIp = ip
  one_address : ∀ ip pub pub', Holds p ip pub → Holds p ip pub' → pub = pub'
  one_host : ∀ ip ip' pub, Holds p ip pub → Holds p ip' pub → ip = ip'

theorem Rep.bijection (hp : Rep p) (hpub : ∀ i, (p.entries i).publicIp = slotAddr addr i) :
    Bijection p := by
  refine ⟨fun ip slot => hp.iff, ?_, ?_⟩
  · rintro ip pub pub' ⟨i, hi, hui, hip, rfl⟩ ⟨j, hj, huj, hjp, rfl⟩
    have h₁ := hp.iff.2 ⟨hi, hui, hip⟩
    have h₂ := hp.iff.2 ⟨hj, huj, hjp⟩
    obtain rfl := Option.some.inj (h₁.symm.trans h₂)
    rfl
  · rintro ip ip' pub ⟨i, hi, -, rfl, hipub⟩ ⟨j, hj, -, rfl, hjpub⟩
    have hij : slotAddr addr i = slotAddr addr j := by
      rw [← hpub, ← hpub, hipub, hjpub]
    have hlt := p.poolSize.isLt
    rw [slotAddr_injective (by omega) (by omega) hij]

/-- **The map and the slots agree** after any calls in any order, on a pool of any size. -/
theorem outbound_map_bijection (E : Env) (addr range : U32) (hz : U64) (statics : List (U32 × U32))
    (calls : List Call) :
    (calls.foldl (exec E) (initPool addr range hz statics)).poolSize = range ∧
      Bijection (calls.foldl (exec E) (initPool addr range hz statics)) := by
  have hrun := calls_run E (initPool addr range hz statics) calls
  obtain ⟨hsize, -, hpub⟩ := run_config hrun
  exact ⟨hsize, (run_rep hrun).bijection hpub⟩

end DpdkBeginners.Pool
