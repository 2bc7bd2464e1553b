import DpdkBeginners.Pool.Rep

/-!
# The two directions of the pool

A packet is inbound when its destination has a static mapping, and outbound otherwise: `nat_pool_apply`
looks at nothing else.  `outboundAddr` is the address that an outbound packet of a host leaves with.

* Packets to a dynamic address fall through to the outbound rules (`returnsToHolder_iff`).
* The replies of a statically mapped host follow the outbound rules, too (`static_reply_source`).
* A static mapping of a pool address takes precedence over the host that holds it
  (`static_mapping_precedence`).
-/

namespace DpdkBeginners.Pool

open DpdkBeginners.Rte DpdkBeginners.Lib

variable {E : Env} {p q : NatPool} {m m' : Mbuf} {now now' : U64} {i slot : ℕ} {host pub : U32}
  {evs evs' : List Event} {addr range : U32} {hz : U64} {statics : List (U32 × U32)}
  {entry : NatInboundEntry}

/-! ### Outbound packets -/

/-- The public address that an outbound packet of `host` leaves with: the one of its slot, or else the
one of the first free slot; `none` when there is none. -/
def outboundAddr (p : NatPool) (host : U32) : Option U32 :=
  match p.outboundMap host with
  | some slot => some (p.entries slot).publicIp
  | none => if findFreeSlot p < 0 then none else some (p.entries (findFreeSlot p).toNat).publicIp

theorem outboundAddr_known (h : p.outboundMap host = some slot) :
    outboundAddr p host = some (p.entries slot).publicIp := by
  unfold outboundAddr
  rw [h]

theorem outboundAddr_free (h : p.outboundMap host = none) (hfree : FirstFree p slot) :
    outboundAddr p host = some (p.entries slot).publicIp := by
  have hneg : ¬ (slot : Int) < 0 := by omega
  simp [outboundAddr, h, hfree.findFreeSlot, hneg]

theorem outboundAddr_exhausted (h : p.outboundMap host = none) (hex : Exhausted p) :
    outboundAddr p host = none := by
  simp [outboundAddr, h, hex.findFreeSlot]

/-- **An outbound packet** keeps its destination and leaves with the outbound address of its source, or
is dropped when there is none. -/
theorem outbound_packet (now : U64) (hip : m.IsIpv4) (hin : p.inboundMap m.dstAddr = none) :
    (natApplyPacket E p now m).2.map Mbuf.srcAddr = outboundAddr p m.srcAddr ∧
      ∀ r, (natApplyPacket E p now m).2 = some r → r.dstAddr = m.dstAddr := by
  cases hs : p.outboundMap m.srcAddr with
  | some slot =>
    rw [natApplyPacket_known hip hin hs, outboundAddr_known hs]
    refine ⟨congrArg some (rewriteSrc_srcAddr E m _), ?_⟩
    intro r hr
    obtain rfl := Option.some.inj hr
    exact rewriteSrc_dstAddr E m _
  | none =>
    rcases firstFree_or_exhausted p with ⟨slot, hfree⟩ | hex
    · rw [natApplyPacket_assigned hip hin hs hfree, outboundAddr_free hs hfree]
      refine ⟨congrArg some (rewriteSrc_srcAddr E m _), ?_⟩
      intro r hr
      obtain rfl := Option.some.inj hr
      exact rewriteSrc_dstAddr E m _
    · rw [natApplyPacket_dropped hip hin hs hex, outboundAddr_exhausted hs hex]
      refine ⟨rfl, ?_⟩
      intro r hr
      cases hr

/-- **An inbound packet** keeps its source and goes to the host its destination is mapped to. -/
theorem inbound_packet (now : U64) (hip : m.IsIpv4) (hin : p.inboundMap m.dstAddr = some entry) :
    ∃ r, natApplyPacket E p now m = (p, some r) ∧ r.srcAddr = m.srcAddr ∧
      r.dstAddr = entry.privateIp :=
  ⟨_, natApplyPacket_static hip hin, rewriteDst_srcAddr E m _, rewriteDst_dstAddr E m _⟩

/-! ### Packets to a dynamic address -/

/-- The packet `m` is dropped or delivered to `host`, its source is given no slot, and its source
address is not rewritten. -/
structure ReturnsToHolder (E : Env) (p : NatPool) (now : U64) (m : Mbuf) (host : U32) : Prop where
  dropped_or_delivered : (natApplyPacket E p now m).2 = none ∨
    ∃ r, (natApplyPacket E p now m).2 = some r ∧ r.dstAddr = host
  no_slot : p.outboundMap m.srcAddr = none → (natApplyPacket E p now m).1.outboundMap m.srcAddr = none
  source_kept : ∀ r, (natApplyPacket E p now m).2 = some r → r.srcAddr = m.srcAddr

/-- When a packet to the dynamic address `pub` of `host` returns to it. -/
theorem returnsToHolder_iff (hp : Rep p) (hip : m.IsIpv4) (hdst : m.dstAddr = pub)
    (hin : p.inboundMap pub = none) :
    ReturnsToHolder E p now m host ↔
      (p.outboundMap m.srcAddr = none ∧ Exhausted p) ∨
        (host = pub ∧ Holds p m.srcAddr m.srcAddr) := by
  subst hdst
  cases hs : p.outboundMap m.srcAddr with
  | some slot =>
    have happ : natApplyPacket E p now m = _ := natApplyPacket_known hip hin hs
    obtain ⟨hi, hu, hsrc⟩ := hp.iff.1 hs
    constructor
    · rintro ⟨hdel, -, hkept⟩
      rw [happ] at hdel hkept
      right
      constructor
      · rcases hdel with hdrop | ⟨r, hr, hhost⟩
        · cases hdrop
        · obtain rfl := Option.some.inj hr
          rw [← hhost, rewriteSrc_dstAddr]
      · have hpub := hkept _ rfl
        rw [rewriteSrc_srcAddr] at hpub
        exact ⟨slot, hi, hu, hsrc, hpub⟩
    · rintro (⟨hnone, -⟩ | ⟨rfl, i, hi', hu', hsrc', hpub⟩)
      · simp at hnone
      · obtain rfl : slot = i := Option.some.inj (hs.symm.trans (hp.iff.2 ⟨hi', hu', hsrc'⟩))
        refine ⟨Or.inr ⟨_, congrArg Prod.snd happ, rewriteSrc_dstAddr E m _⟩, ?_, ?_⟩
        · intro h
          simp [hs] at h
        · intro r hr
          rw [happ] at hr
          obtain rfl := Option.some.inj hr
          rw [rewriteSrc_srcAddr, hpub]
  | none =>
    have hnot : ¬ Holds p m.srcAddr m.srcAddr := by
      rintro ⟨i, hi, hu, hsrc, -⟩
      simp [hp.iff.2 ⟨hi, hu, hsrc⟩] at hs
    rcases firstFree_or_exhausted p with ⟨slot, hfree⟩ | hex
    · have happ : natApplyPacket E p now m = _ := natApplyPacket_assigned hip hin hs hfree
      constructor
      · rintro ⟨-, hslot, -⟩
        have hnone := hslot hs
        rw [happ] at hnone
        change Function.update p.outboundMap m.srcAddr (some slot) m.srcAddr = none at hnone
        simp at hnone
      · rintro (⟨-, hex⟩ | ⟨-, hholds⟩)
        · exact absurd hex hfree.not_exhausted
        · exact absurd hholds hnot
    · have happ : natApplyPacket E p now m = _ := natApplyPacket_dropped hip hin hs hex
      refine ⟨fun _ => Or.inl ⟨rfl, hex⟩, fun _ => ⟨Or.inl ?_, ?_, ?_⟩⟩
      · rw [happ]
      · intro _
        rw [happ]
        exact hs
      · intro r hr
        rw [happ] at hr
        cases hr

/-- **When return traffic of a dynamic mapping returns to its host**: when the packet is dropped, because
its source has no slot and can get none; or when the host, whichever it is, has the address `pub`
itself and the source holds its own address. -/
theorem return_traffic_iff (h : Run (Step E) (initPool addr range hz statics) evs p)
    (hip : m.IsIpv4) (hdst : m.dstAddr = pub) (hin : p.inboundMap pub = none) (now : U64) :
    ReturnsToHolder E p now m host ↔
      (p.outboundMap m.srcAddr = none ∧ Exhausted p) ∨
        (host = pub ∧ Holds p m.srcAddr m.srcAddr) :=
  returnsToHolder_iff (run_rep h) hip hdst hin

theorem return_traffic_iff_hostA :
    ReturnsToHolder ghz (fivePoolA mainStart) 2000000000 (frame remote mainStart) hostA ↔
      ((fivePoolA mainStart).outboundMap (frame remote mainStart).srcAddr = none ∧
        Exhausted (fivePoolA mainStart)) ∨
      (hostA = mainStart ∧ Holds (fivePoolA mainStart) (frame remote mainStart).srcAddr
        (frame remote mainStart).srcAddr) :=
  return_traffic_iff (run_fivePoolA mainStart) (frame_isIpv4 ..) (frame_dstAddr ..) (by decide)
    2000000000

/-- **A remote sender takes a slot of the pool**: the packet that 8.8.8.8 sends to the address that
`hostA` holds is given slot 1. -/
theorem return_traffic_takes_slot :
    ¬ ∀ (E : Env) (addr range : U32) (hz : U64) (statics : List (U32 × U32)) (evs : List Event)
      (p : NatPool) (host pub : U32) (m : Mbuf) (now : U64),
      Run (Step E) (initPool addr range hz statics) evs p → Holds p host pub → m.IsIpv4 →
      m.dstAddr = pub → p.inboundMap pub = none → ReturnsToHolder E p now m host := by
  intro hall
  have hrun := run_fivePoolA mainStart
  have hpub : slotAddr mainStart 0 = mainStart := by decide
  have h := hall ghz _ _ _ _ _ _ hostA mainStart (frame remote mainStart) 2000000000 hrun
    (hpub ▸ holds_fivePoolA mainStart) (frame_isIpv4 ..) (frame_dstAddr ..) (by decide)
  rw [returnsToHolder_iff (run_rep hrun) (frame_isIpv4 ..) (frame_dstAddr ..) (by decide)] at h
  rcases h with ⟨-, hex⟩ | ⟨hhost, -⟩
  · have hused := hex 1 (by decide) (by decide)
    revert hused
    decide
  · revert hhost
    decide

/-! ### Replies of a statically mapped host -/

theorem outboundAddr_mem (hp : Rep p) (h : outboundAddr p host = some pub) :
    ∃ i < p.poolSize.toNat, (p.entries i).publicIp = pub := by
  cases hs : p.outboundMap host with
  | some slot =>
    rw [outboundAddr_known hs] at h
    exact ⟨slot, (hp.iff.1 hs).1, Option.some.inj h⟩
  | none =>
    rcases firstFree_or_exhausted p with ⟨slot, hfree⟩ | hex
    · rw [outboundAddr_free hs hfree] at h
      exact ⟨slot, hfree.1, Option.some.inj h⟩
    · rw [outboundAddr_exhausted hs hex] at h
      cases h

/-- **The source of a reply.**  When a packet to a statically mapped address has been delivered, the
reply of the host leaves, whatever has happened since, with the address that the outbound rules give to
the host, which does not depend on the static mapping; or with its own, if it goes to a statically
mapped address itself.  So the sender never sees the reply come from the address it contacted when that
address is not one of the pool. -/
theorem static_reply_source (h : Run (Step E) (initPool addr range hz statics) evs p) (hip : m.IsIpv4)
    (hin : p.inboundMap m.dstAddr = some entry)
    (h' : Run (Step E) (natApplyPacket E p now m).1 evs' q) (hip' : m'.IsIpv4)
    (hsrc : m'.srcAddr = entry.privateIp) (hdst : m'.dstAddr = m.srcAddr) (now' : U64) :
    (∃ r, (natApplyPacket E p now m).2 = some r ∧ r.dstAddr = entry.privateIp) ∧
    (q.inboundMap m.srcAddr = none →
      (natApplyPacket E q now' m').2.map Mbuf.srcAddr = outboundAddr q entry.privateIp) ∧
    (q.inboundMap m.srcAddr ≠ none →
      (natApplyPacket E q now' m').2.map Mbuf.srcAddr = some entry.privateIp) ∧
    ((∀ i < range.toNat, slotAddr addr i ≠ m.dstAddr) → entry.privateIp ≠ m.dstAddr →
      (natApplyPacket E q now' m').2.map Mbuf.srcAddr ≠ some m.dstAddr) := by
  obtain ⟨r, hr, -, hrd⟩ := inbound_packet (E := E) now hip hin
  have hm : Step E p (.packet m now) (natApplyPacket E p now m).1 := rfl
  have hq := (h.snoc hm).append h'
  have hout : q.inboundMap m.srcAddr = none →
      (natApplyPacket E q now' m').2.map Mbuf.srcAddr = outboundAddr q entry.privateIp := by
    intro hnone
    rw [← hdst] at hnone
    rw [(outbound_packet now' hip' hnone).1, hsrc]
  have hstat : q.inboundMap m.srcAddr ≠ none →
      (natApplyPacket E q now' m').2.map Mbuf.srcAddr = some entry.privateIp := by
    intro hsome
    obtain ⟨f, hf⟩ := Option.ne_none_iff_exists'.1 hsome
    rw [← hdst] at hf
    obtain ⟨r', hr', hrs, -⟩ := inbound_packet (E := E) now' hip' hf
    rw [hr', Option.map_some, hrs, hsrc]
  refine ⟨⟨r, congrArg Prod.snd hr, hrd⟩, hout, hstat, ?_⟩
  intro hpool hne heq
  by_cases hnone : q.inboundMap m.srcAddr = none
  · rw [hout hnone] at heq
    obtain ⟨i, hi, hpub⟩ := outboundAddr_mem (run_rep hq) heq
    obtain ⟨hsize, -, haddr⟩ := run_config hq
    rw [hsize] at hi
    exact hpool i hi ((haddr i).symm.trans hpub)
  · rw [hstat hnone] at heq
    exact hne (Option.some.inj heq)

/-- The first static host of `nat_inbound.txt` and its static address. -/
def staticHost : U32 := netAddr 192 168 1 10
def staticAddr : U32 := netAddr 203 0 113 1

theorem static_fivePool :
    (fivePool mainStart).inboundMap (frame remote staticAddr).dstAddr = some ⟨staticAddr, staticHost⟩ := by
  rw [frame_dstAddr]
  rfl

theorem run_static :
    Run (Step ghz) (natApplyPacket ghz (fivePool mainStart) 1 (frame remote staticAddr)).1 []
      (fivePool mainStart) := by
  rw [natApplyPacket_static (frame_isIpv4 ..) static_fivePool]
  exact .refl

theorem static_reply_source_fivePool :
    (∃ r, (natApplyPacket ghz (fivePool mainStart) 1 (frame remote staticAddr)).2 = some r ∧
      r.dstAddr = staticHost) ∧
    (natApplyPacket ghz (fivePool mainStart) 2 (frame staticHost remote)).2.map Mbuf.srcAddr =
      outboundAddr (fivePool mainStart) staticHost := by
  have h := static_reply_source (Run.refl (s := fivePool mainStart)) (frame_isIpv4 ..) static_fivePool
    run_static (frame_isIpv4 staticHost remote) (frame_srcAddr ..)
    ((frame_dstAddr ..).trans (frame_srcAddr ..).symm) 2
  refine ⟨h.1, h.2.1 ?_⟩
  rw [frame_srcAddr]
  decide

/-- **The reply need not come from the address that was contacted.** -/
theorem static_reply_other_source :
    ¬ ∀ (E : Env) (addr range : U32) (hz : U64) (statics : List (U32 × U32)) (evs evs' : List Event)
      (p q : NatPool) (m m' : Mbuf) (now now' : U64) (entry : NatInboundEntry),
      Run (Step E) (initPool addr range hz statics) evs p → m.IsIpv4 →
      p.inboundMap m.dstAddr = some entry → Run (Step E) (natApplyPacket E p now m).1 evs' q →
      m'.IsIpv4 → m'.srcAddr = entry.privateIp → m'.dstAddr = m.srcAddr →
      (natApplyPacket E q now' m').2.map Mbuf.srcAddr = some m.dstAddr := by
  intro hall
  have h := hall ghz _ _ _ _ [] [] (fivePool mainStart) (fivePool mainStart) (frame remote staticAddr)
    (frame staticHost remote) 1 2 _ .refl (frame_isIpv4 ..) static_fivePool run_static
    (frame_isIpv4 ..) (frame_srcAddr ..) ((frame_dstAddr ..).trans (frame_srcAddr ..).symm)
  have hin : (fivePool mainStart).inboundMap (frame staticHost remote).dstAddr = none := by
    rw [frame_dstAddr]
    decide
  rw [(outbound_packet 2 (frame_isIpv4 ..) hin).1, outboundAddr_free rfl (firstFree_fivePool _),
    frame_dstAddr] at h
  revert h
  decide

/-! ### Static mappings of pool addresses -/

/-- The packet `m` is sent on to the address `host`. -/
def Delivered (E : Env) (p : NatPool) (now : U64) (m : Mbuf) (host : U32) : Prop :=
  ∃ r, (natApplyPacket E p now m).2 = some r ∧ r.dstAddr = host

theorem inboundMap_initPool (h : (initPool addr range hz statics).inboundMap pub = some entry) :
    (pub, entry.privateIp) ∈ statics := by
  revert pub entry
  unfold initPool
  refine List.foldlRecOn (motive := fun q : NatPool => ∀ {pub entry},
    q.inboundMap pub = some entry → (pub, entry.privateIp) ∈ statics) _ _ ?_ ?_
  · intro pub entry h
    cases h
  · intro q hq x hx pub entry h
    change Function.update q.inboundMap x.1 (some ⟨x.1, x.2⟩) pub = some entry at h
    by_cases hpub : pub = x.1
    · subst hpub
      rw [Function.update_self] at h
      obtain rfl := Option.some.inj h
      exact hx
    · rw [Function.update_of_ne hpub] at h
      exact hq h

/-- **A static mapping takes precedence** over the host that holds the address.  A packet to the address
that `host` holds goes where the static mapping of that address says, and when there is none it is sent
on with its destination as it is, unless it is dropped.  So it reaches no other private host when no
static address is an address of the pool. -/
theorem static_mapping_precedence (h : Run (Step E) (initPool addr range hz statics) evs p)
    (hholds : Holds p host pub) (hip : m.IsIpv4) (hdst : m.dstAddr = pub) (now : U64) :
    (∀ host', Delivered E p now m host' ↔
      (∃ entry, p.inboundMap pub = some entry ∧ entry.privateIp = host') ∨
        (p.inboundMap pub = none ∧ host' = pub ∧ outboundAddr p m.srcAddr ≠ none)) ∧
    ((∀ x ∈ statics, ∀ i < range.toNat, x.1 ≠ slotAddr addr i) →
      ∀ host', Delivered E p now m host' → host' = pub) := by
  have hiff : ∀ host', Delivered E p now m host' ↔
      (∃ entry, p.inboundMap pub = some entry ∧ entry.privateIp = host') ∨
        (p.inboundMap pub = none ∧ host' = pub ∧ outboundAddr p m.srcAddr ≠ none) := by
    intro host'
    subst hdst
    unfold Delivered
    cases hin : p.inboundMap m.dstAddr with
    | some entry =>
      obtain ⟨r, hr, -, hrd⟩ := inbound_packet (E := E) now hip hin
      rw [hr]
      simp [hrd]
    | none =>
      obtain ⟨hsrc, hdst⟩ := outbound_packet (E := E) now hip hin
      rw [← hsrc]
      constructor
      · rintro ⟨r, hr, rfl⟩
        exact Or.inr ⟨rfl, hdst r hr, by simp [hr]⟩
      · rintro (⟨entry, hentry, -⟩ | ⟨-, rfl, hsome⟩)
        · cases hentry
        · obtain ⟨r, hr⟩ : ∃ r, (natApplyPacket E p now m).2 = some r := by
            simpa [Option.ne_none_iff_exists'] using hsome
          exact ⟨r, hr, hdst r hr⟩
  refine ⟨hiff, ?_⟩
  intro hdisj host' hdel
  rcases (hiff host').1 hdel with ⟨entry, hentry, -⟩ | ⟨-, hhost, -⟩
  · obtain ⟨i, hi, -, -, hpub⟩ := hholds
    obtain ⟨hsize, hin, haddr⟩ := run_config h
    rw [hin] at hentry
    rw [hsize] at hi
    exact absurd (hpub.symm.trans (haddr i)) (hdisj _ (inboundMap_initPool hentry) i hi)
  · exact hhost

/-- A packet to the address that `hostA` holds, in the pool of `nat.txt`. -/
theorem static_mapping_precedence_hostA :
    Delivered ghz (fivePoolA txtStart) 2000000000 (frame remote txtStart) staticHost ↔
      (∃ entry, (fivePoolA txtStart).inboundMap txtStart = some entry ∧ entry.privateIp = staticHost) ∨
        ((fivePoolA txtStart).inboundMap txtStart = none ∧ staticHost = txtStart ∧
          outboundAddr (fivePoolA txtStart) (frame remote txtStart).srcAddr ≠ none) := by
  have hpub : slotAddr txtStart 0 = txtStart := by decide
  exact (static_mapping_precedence (run_fivePoolA txtStart) (hpub ▸ holds_fivePoolA txtStart)
    (frame_isIpv4 ..) (frame_dstAddr ..) 2000000000).1 staticHost

/-- **Static and dynamic addresses clash** in the configuration of `nat.txt` and `nat_inbound.txt`: the
packet to the address that 192.168.1.50 holds is delivered to 192.168.1.10. -/
theorem static_dynamic_clash :
    ¬ ∀ (E : Env) (addr range : U32) (hz : U64) (statics : List (U32 × U32)) (evs : List Event)
      (p : NatPool) (host host' pub : U32) (m : Mbuf) (now : U64),
      Run (Step E) (initPool addr range hz statics) evs p → Holds p host pub → m.IsIpv4 →
      m.dstAddr = pub → host' ≠ host → host' ≠ pub → ¬ Delivered E p now m host' := by
  intro hall
  have hpub : slotAddr txtStart 0 = txtStart := by decide
  have hin : (fivePoolA txtStart).inboundMap (frame remote txtStart).dstAddr =
      some ⟨staticAddr, staticHost⟩ := by
    rw [frame_dstAddr]
    rfl
  obtain ⟨r, hr, -, hrd⟩ := inbound_packet (E := ghz) 2000000000 (frame_isIpv4 ..) hin
  exact hall ghz _ _ _ _ _ _ hostA staticHost txtStart (frame remote txtStart) 2000000000
    (run_fivePoolA txtStart) (hpub ▸ holds_fivePoolA txtStart) (frame_isIpv4 ..) (frame_dstAddr ..)
    (by decide) (by decide) ⟨r, congrArg Prod.snd hr, hrd⟩

end DpdkBeginners.Pool
