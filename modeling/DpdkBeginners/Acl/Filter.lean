import DpdkBeginners.Acl.Defs
import DpdkBeginners.Rte.Mempool

/-!
# What the filters match

`rte_acl` reads the key in network order and the rule in host order.  In `exp` they are; in `l2fwd_acl` the addresses
of both have their bytes swapped, which makes no difference to whether they are equal (`tcpFrom_matches_iff`).  So the
two programs match the same packets (`exp_agrees`).
-/

namespace DpdkBeginners.Acl

open DpdkBeginners.Rte DpdkBeginners.Lib

/-! ### The key -/

section Key

variable {swap16 : U16 → U16} {swap32 : U32 → U32} {d key : Bytes} {l4 ip : ℕ}

theorem setPorts_apply {i : ℕ} (hi : i < 12) : setPorts swap16 d l4 key i = key i := by
  unfold setPorts
  rw [store16_apply _ (by omega), store16_apply _ (by omega)]

theorem pktKey_apply {i : ℕ} (hi : i < 12) : pktKey swap16 swap32 d ip i =
    store32 (store32 (Function.update (fun _ => 0) 0 (d (ip + 9))) 4 (swap32 (load32 d (ip + 12)))) 8
      (swap32 (load32 d (ip + 16))) i := by
  unfold pktKey
  split_ifs
  · exact setPorts_apply hi
  · exact setPorts_apply hi
  · rfl

theorem pktKey_proto : pktKey swap16 swap32 d ip 0 = d (ip + 9) := by
  rw [pktKey_apply (by omega), store32_apply _ (by omega), store32_apply _ (by omega), Function.update_self]

theorem pktKey_srcIp : load32 (pktKey swap16 swap32 d ip) 4 = swap32 (load32 d (ip + 12)) := by
  rw [load32_congr fun i _ hi => pktKey_apply (by omega), load32_store32_of_disjoint _ (by omega), load32_store32]

end Key

/-! ### The rule -/

section Rules

variable {swap16 : U16 → U16} {swap32 : U32 → U32} {d : Bytes} {ip : ℕ} {src : U32}

theorem and_byte_eq_iff (v w : U8) : v.setWidth 32 &&& 0xff#32 = w.setWidth 32 &&& 0xff#32 ↔ v = w := by
  have hback : ∀ v : U8, (v.setWidth 32 &&& 0xff#32).setWidth 8 = v := by
    intro v
    rw [BitVec.setWidth_and, BitVec.setWidth_setWidth_of_le v (by omega), BitVec.setWidth_eq]
    exact BitVec.and_allOnes
  constructor
  · intro h
    rw [← hback v, h, hback]
  · rintro rfl
    rfl

theorem range_matches (v : U16) : (0 : U32) ≤ v.setWidth 32 ∧ v.setWidth 32 ≤ (65535 : U32) := by
  have hlt := v.isLt
  constructor <;> bv_omega

theorem ushiftRight_all (v w : U32) : v >>> 32 = w >>> 32 := by
  bv_omega

/-- **The rule** compares the protocol and the source, as the key has it. -/
theorem tcpFrom_matches_iff :
    (tcpFrom src).Matches fieldDefs (pktKey swap16 swap32 d ip) ↔
      d (ip + 9) = ipprotoTcp ∧ rteBeToCpu32 (swap32 (load32 d (ip + 12))) = src := by
  have hproto : (⟨.bitmask, 1, 0⟩ : FieldDef).Matches ⟨ipprotoTcp.setWidth 32, 0xff⟩
      ((pktKey swap16 swap32 d ip 0).setWidth 32) ↔ d (ip + 9) = ipprotoTcp := by
    rw [pktKey_proto]
    exact and_byte_eq_iff _ _
  have hsrc : (⟨.mask, 4, 4⟩ : FieldDef).Matches ⟨src, 32⟩
      (rteBeToCpu32 (load32 (pktKey swap16 swap32 d ip) 4)) ↔
        rteBeToCpu32 (swap32 (load32 d (ip + 12))) = src := by
    rw [pktKey_srcIp]
    exact Iff.rfl
  have hdst : (⟨.mask, 4, 8⟩ : FieldDef).Matches ⟨0, 0⟩
      (rteBeToCpu32 (load32 (pktKey swap16 swap32 d ip) 8)) := ushiftRight_all _ _
  have hports : ∀ o v, (⟨.range, 2, o⟩ : FieldDef).Matches ⟨0, 65535⟩ (BitVec.setWidth 32 v) :=
    fun _ v => range_matches v
  constructor
  · rintro ⟨-, h⟩
    refine ⟨hproto.1 (h (_, _) ?_), hsrc.1 (h (_, _) ?_)⟩
    · exact List.mem_cons_self ..
    · exact List.mem_cons_of_mem _ (List.mem_cons_self ..)
  · rintro ⟨hp, hs⟩
    have hcategory : (tcpFrom src).categoryMask &&& 1 ≠ 0 := by
      show (1 : U32) &&& 1 ≠ 0
      decide
    refine ⟨hcategory, ?_⟩
    simp only [fieldDefs, tcpFrom, List.zip_cons_cons, List.zip_nil_right, List.forall_mem_cons]
    exact ⟨hproto.2 hp, hsrc.2 hs, hdst, hports .., hports .., by simp⟩

theorem Documented.ne_zero_iff {acl : Bytes → U32} (h : Documented fieldDefs [tcpFrom src] acl) (key : Bytes) :
    acl key ≠ 0 ↔ (tcpFrom src).Matches fieldDefs key := by
  obtain ⟨best, hbest, hacl⟩ := h key
  have hfind := (selects_iff (List.pairwise_singleton ..)).1 hbest
  rw [hacl, hfind]
  by_cases hm : (tcpFrom src).Matches fieldDefs key
  · rw [List.find?_cons_of_pos (by simpa using hm)]
    refine iff_of_true ?_ hm
    show (1 : U32) ≠ 0
    decide
  · rw [List.find?_cons_of_neg (by simpa using hm)]
    exact iff_of_false (by simp) hm

end Rules

/-- The packets that the rule is for, of an IPv4 header that starts at `ip`. -/
def Admitted (d : Bytes) (ip : ℕ) : Prop := d (ip + 9) = ipprotoTcp ∧ load32 d (ip + 12) = netAddr 172 17 166 200

instance (d : Bytes) (ip : ℕ) : Decidable (Admitted d ip) := inferInstanceAs (Decidable (_ ∧ _))

theorem Documented.l2fwd_iff {acl : Bytes → U32} (h : Documented fieldDefs initAcl acl) (d : Bytes) :
    acl (pktKey rteBeToCpu16 rteBeToCpu32 d 14) ≠ 0 ↔ Admitted d 14 := by
  have hswap : ∀ v : U32, rteBeToCpu32 (rteBeToCpu32 v) = v := bswap32_bswap32
  unfold initAcl at h
  unfold Admitted
  rw [h.ne_zero_iff, tcpFrom_matches_iff, hswap]
  exact Iff.rfl

theorem Documented.exp_iff {acl : Bytes → U32} (h : Documented fieldDefs expRules acl) (d : Bytes) (ip : ℕ) :
    acl (pktKey id id d ip) ≠ 0 ↔ Admitted d ip := by
  have hswap : bswap32 (netAddr 172 17 166 200) = rteIpv4 172 17 166 200 := bswap32_bswap32 _
  unfold expRules at h
  unfold Admitted
  rw [h.ne_zero_iff, tcpFrom_matches_iff, ← hswap]
  exact and_congr_right fun _ => bswap32_injective.eq_iff

/-! ### The packets of a burst -/

section Bursts

variable {ι : Type*} {acl aclExp : Bytes → U32}

/-- The filter lets a packet through. -/
def Passes (m : Mbuf) : Prop := m.IsIpv4 ∧ Admitted m.data 14

instance (m : Mbuf) : Decidable (Passes m) := inferInstanceAs (Decidable (_ ∧ _))

/-- The packets that are offered to the transmit queue, those that are freed, and those that the queue refuses. -/
def Burst.passed (b : Burst ι) : List ι := b.bufs.filter fun m => Passes (b.mtod m)
def Burst.blocked (b : Burst ι) : List ι := b.bufs.filter fun m => ¬ Passes (b.mtod m)
def Burst.refused (b : Burst ι) : List ι := b.passed.filter fun m => b.tx.burst [m] = 0

theorem Documented.forward_of_passes (hacl : Documented fieldDefs initAcl acl) {tx : TxQueue ι} {mtod : ι → Mbuf}
    {m : ι} (h : Passes (mtod m)) : forward acl tx mtod m = tx.send [m] := by
  rw [forward, if_neg (not_not.2 h.1), if_pos ((hacl.l2fwd_iff _).2 h.2)]

theorem Documented.forward_of_not_passes (hacl : Documented fieldDefs initAcl acl) {tx : TxQueue ι} {mtod : ι → Mbuf}
    {m : ι} (h : ¬ Passes (mtod m)) : forward acl tx mtod m = .free m := by
  unfold forward
  by_cases hip : (mtod m).IsIpv4
  · rw [if_neg (not_not.2 hip), if_neg fun hc => h ⟨hip, (hacl.l2fwd_iff _).1 hc⟩]
  · rw [if_pos hip]

/-- An IPv4 packet behind a VLAN tag. -/
def TaggedIpv4 (m : Mbuf) : Prop :=
  m.etherType = rteCpuToBe16 rteEtherTypeVlan ∧ load16 m.data 16 = rteCpuToBe16 rteEtherTypeIpv4

theorem Documented.expMatch_eq (h : Documented fieldDefs expRules aclExp) (m : Mbuf) :
    expMatch aclExp m = if (expParse m).1 = rteCpuToBe16 rteEtherTypeIpv4 then
      some (decide (Admitted m.data (expParse m).2)) else none := by
  have hdef : expMatch aclExp m = if (expParse m).1 ≠ rteCpuToBe16 rteEtherTypeIpv4 then none else some (decide
      (aclExp (pktKey id id m.data (expParse m).2) ≠ 0)) := rfl
  rw [hdef, decide_eq_decide.2 (h.exp_iff ..)]
  exact ite_not ..

theorem Documented.expMatch_tagged (h : Documented fieldDefs expRules aclExp) {m : Mbuf} (ht : TaggedIpv4 m) :
    expMatch aclExp m = some (decide (Admitted m.data 18)) := by
  have hparse : expParse m = (load16 m.data 16, 18) := if_pos ht.1
  rw [h.expMatch_eq, hparse, if_pos ht.2]

theorem Documented.expMatch_untagged (h : Documented fieldDefs expRules aclExp) {m : Mbuf} (hip : m.IsIpv4) :
    expMatch aclExp m = some (decide (Admitted m.data 14)) := by
  have hne : m.etherType ≠ rteCpuToBe16 rteEtherTypeVlan := by
    rw [show m.etherType = _ from hip]
    decide
  have hparse : expParse m = (m.etherType, 14) := if_neg hne
  rw [h.expMatch_eq, hparse]
  exact if_pos hip

theorem Documented.expMatch_eq_none (h : Documented fieldDefs expRules aclExp) {m : Mbuf} (hip : ¬ m.IsIpv4)
    (ht : ¬ TaggedIpv4 m) : expMatch aclExp m = none := by
  have hparse : (expParse m).1 ≠ rteCpuToBe16 rteEtherTypeIpv4 := by
    unfold expParse
    split_ifs with htag
    · exact fun hv => ht ⟨htag, hv⟩
    · exact hip
  rw [h.expMatch_eq, if_neg hparse]

/-- **The two filters agree**: `exp` prints a match for the packets that `l2fwd_acl` sends, and for those that are also
behind a VLAN tag. -/
theorem exp_agrees (hacl : Documented fieldDefs initAcl acl) (hexp : Documented fieldDefs expRules aclExp)
    (tx : TxQueue ι) (mtod : ι → Mbuf) (m : ι) :
    (expMatch aclExp (mtod m) = some true ↔
      forward acl tx mtod m = tx.send [m] ∨ TaggedIpv4 (mtod m) ∧ Admitted (mtod m).data 18) ∧
    (expMatch aclExp (mtod m) = none ↔ ¬ (mtod m).IsIpv4 ∧ ¬ TaggedIpv4 (mtod m)) := by
  have hforward : forward acl tx mtod m = tx.send [m] ↔ Passes (mtod m) := by
    by_cases h : Passes (mtod m)
    · exact iff_of_true (hacl.forward_of_passes h) h
    · refine iff_of_false ?_ h
      rw [hacl.forward_of_not_passes h]
      intro he
      cases he
  rw [hforward]
  by_cases hip : (mtod m).IsIpv4
  · have hnot : ¬ TaggedIpv4 (mtod m) := by
      intro ht
      have heq : rteCpuToBe16 rteEtherTypeIpv4 = rteCpuToBe16 rteEtherTypeVlan := hip.symm.trans ht.1
      exact absurd heq (by decide)
    rw [hexp.expMatch_untagged hip]
    simp [Passes, hip, hnot]
  · by_cases ht : TaggedIpv4 (mtod m)
    · rw [hexp.expMatch_tagged ht]
      simp [Passes, hip, ht]
    · rw [hexp.expMatch_eq_none hip ht]
      simp [Passes, hip, ht]

theorem flatMap_iteration {f : MbufOp ι → List ι} {P : ι → Prop} [DecidablePred P] {b : Burst ι}
    (h : ∀ m, ¬ P m → f (forward acl b.tx b.mtod m) = []) :
    (iteration acl b).flatMap f = ((b.bufs.filter P).map (forward acl b.tx b.mtod)).flatMap f := by
  unfold iteration
  induction b.bufs with
  | nil => rfl
  | cons m bufs ih =>
    by_cases hm : P m
    · rw [List.filter_cons_of_pos (by simpa using hm), List.map_cons, List.map_cons, List.flatMap_cons,
        List.flatMap_cons, ih]
    · rw [List.filter_cons_of_neg (by simpa using hm), List.map_cons, List.flatMap_cons, h m hm, ih]
      rfl

theorem Documented.map_passed (hacl : Documented fieldDefs initAcl acl) (b : Burst ι) :
    b.passed.map (forward acl b.tx b.mtod) = b.passed.map fun m => b.tx.send [m] :=
  List.map_congr_left fun _ hm => hacl.forward_of_passes (by simpa using List.of_mem_filter hm)

theorem Documented.map_blocked (hacl : Documented fieldDefs initAcl acl) (b : Burst ι) :
    b.blocked.map (forward acl b.tx b.mtod) = b.blocked.map .free :=
  List.map_congr_left fun _ hm => hacl.forward_of_not_passes (by simpa using List.of_mem_filter hm)

theorem Documented.offered_iteration (hacl : Documented fieldDefs initAcl acl) (b : Burst ι) :
    (iteration acl b).flatMap MbufOp.offered = b.passed := by
  have hblocked : ∀ m, ¬ Passes (b.mtod m) → (forward acl b.tx b.mtod m).offered = [] := fun m hm => by
    rw [hacl.forward_of_not_passes hm]
    rfl
  rw [flatMap_iteration hblocked]
  exact (congrArg _ (hacl.map_passed b)).trans (offered_singles ..)

theorem Documented.refused_iteration (hacl : Documented fieldDefs initAcl acl) (b : Burst ι) :
    (iteration acl b).flatMap MbufOp.refused = b.refused := by
  have hblocked : ∀ m, ¬ Passes (b.mtod m) → (forward acl b.tx b.mtod m).refused = [] := fun m hm => by
    rw [hacl.forward_of_not_passes hm]
    rfl
  rw [flatMap_iteration hblocked]
  exact (congrArg _ (hacl.map_passed b)).trans (refused_singles ..)

theorem Documented.freed_iteration (hacl : Documented fieldDefs initAcl acl) (b : Burst ι) :
    (iteration acl b).flatMap MbufOp.freed = b.blocked := by
  have hpassed : ∀ m, ¬¬ Passes (b.mtod m) → (forward acl b.tx b.mtod m).freed = [] := fun m hm => by
    rw [hacl.forward_of_passes (not_not.1 hm)]
    rfl
  rw [flatMap_iteration hpassed]
  exact (congrArg _ (hacl.map_blocked b)).trans (freed_frees _)

theorem iteration_perm (acl : Bytes → U32) (b : Burst ι) :
    ((iteration acl b).flatMap MbufOp.offered ++ (iteration acl b).flatMap MbufOp.freed).Perm b.bufs := by
  unfold iteration
  induction b.bufs with
  | nil => exact .refl _
  | cons m bufs ih =>
    have hone : (forward acl b.tx b.mtod m).offered = [m] ∧ (forward acl b.tx b.mtod m).freed = [] ∨
        (forward acl b.tx b.mtod m).offered = [] ∧ (forward acl b.tx b.mtod m).freed = [m] := by
      unfold forward
      split_ifs
      · exact .inl ⟨rfl, rfl⟩
      · exact .inr ⟨rfl, rfl⟩
      · exact .inr ⟨rfl, rfl⟩
    rw [List.map_cons, List.flatMap_cons, List.flatMap_cons]
    rcases hone with ⟨hoffered, hfreed⟩ | ⟨hoffered, hfreed⟩
    · rw [hoffered, hfreed]
      exact ih.cons m
    · rw [hoffered, hfreed]
      exact List.perm_middle.trans (ih.cons m)

/-- The main loop. -/
def filter (acl : Bytes → U32) : Loop (Burst ι) ι where
  received := Burst.bufs
  ops := iteration acl
  gives b := given_le (iteration_perm acl b)

/-! ### Runs -/

variable [DecidableEq ι]

/-- **The filter** offers the packets of one TCP source to the transmit queue, in order, and frees the others.  What the
queue refuses is missing for the rest of the run, and nothing else is. -/
theorem filter_spec (hacl : Documented fieldDefs initAcl acl) :
    (∀ b : Burst ι, (iteration acl b).flatMap MbufOp.offered = b.passed ∧
      (iteration acl b).flatMap MbufOp.freed = b.blocked) ∧
    (filter acl).Drains fun b : Burst ι => b.refused.length := by
  refine ⟨fun b => ⟨hacl.offered_iteration b, hacl.freed_iteration b⟩,
    Loop.drains_of_perm (iteration_perm acl) fun b => ?_⟩
  exact congrArg List.length (hacl.refused_iteration b)

end Bursts

/-! ### Packets of the source of the rule -/

/-- A list of one rule. -/
def oneRule (r : Rule) (key : Bytes) : U32 := if r.Matches fieldDefs key then r.userdata else 0

theorem documented_oneRule (r : Rule) : Documented fieldDefs [r] (oneRule r) := by
  intro key
  refine ⟨_, (selects_iff (List.pairwise_singleton ..)).2 rfl, ?_⟩
  unfold oneRule
  by_cases hm : r.Matches fieldDefs key
  · rw [if_pos hm, List.find?_cons_of_pos (by simpa using hm)]
    rfl
  · rw [if_neg hm, List.find?_cons_of_neg (by simpa using hm)]
    rfl

/-- The context that `init_acl` builds, and that of `exp`. -/
def l2fwdAcl : Bytes → U32 := oneRule (tcpFrom (rteBeToCpu32 (rteIpv4 172 17 166 200)))
def expAcl : Bytes → U32 := oneRule (tcpFrom (rteIpv4 172 17 166 200))

/-- A packet of the source of the rule. -/
def ofSource (proto : U8) : Mbuf := l4Frame proto (netAddr 172 17 166 200) (netAddr 8 8 8 8) 1000 80

/-- A TCP packet that the queue refuses, of a pool of two mbufs, and a UDP packet. -/
def refusedBurst : Burst ℕ := ⟨[0, 1], fun m => ofSource (if m = 0 then ipprotoTcp else ipprotoUdp), takesHalf⟩

theorem filter_spec_refusedBurst :
    (iteration l2fwdAcl refusedBurst).flatMap MbufOp.offered = [0] ∧
    (iteration l2fwdAcl refusedBurst).flatMap MbufOp.freed = [1] ∧
    ∀ b : Burst ℕ, (filter l2fwdAcl).Enabled ⟨{1}, 0, {0}⟩ (.iteration b) → b.bufs.length + 1 ≤ 2 := by
  obtain ⟨hburst, hdrains⟩ := @filter_spec ℕ l2fwdAcl _ (documented_oneRule _)
  obtain ⟨hoffered, hfreed⟩ := hburst refusedBurst
  have hrun : Run (filter l2fwdAcl).Step (rtePktmbufPoolCreate {0, 1}) [.iteration refusedBurst] ⟨{1}, 0, {0}⟩ :=
    Run.single_iff.2 ⟨by decide, by decide⟩
  exact ⟨hoffered.trans (by decide), hfreed.trans (by decide), fun b hen => (hdrains _ _ _ hrun).2 b hen⟩

theorem exp_agrees_refusedBurst : expMatch expAcl (refusedBurst.mtod 0) = some true ↔
    forward l2fwdAcl takesHalf refusedBurst.mtod 0 = takesHalf.send [0] ∨
      TaggedIpv4 (refusedBurst.mtod 0) ∧ Admitted (refusedBurst.mtod 0).data 18 :=
  (exp_agrees (documented_oneRule _) (documented_oneRule _) takesHalf refusedBurst.mtod 0).1

end DpdkBeginners.Acl
