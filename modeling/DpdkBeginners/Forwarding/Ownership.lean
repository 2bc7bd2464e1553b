import DpdkBeginners.Forwarding.Loops
import DpdkBeginners.Segregation.Loop
import DpdkBeginners.Vxlan.RoundTrip

/-!
# Who owns a received mbuf after an iteration

Each of the four loops offers or frees every mbuf that it has received, once.  But none of them looks at
what `rte_eth_tx_burst` returns, so an mbuf that the queue refuses is lost: it is neither transmitted nor
freed, and the loop forgets it.  So ownership is kept exactly when the queue accepts all it is offered.
-/

namespace DpdkBeginners.Forwarding

open DpdkBeginners.Rte DpdkBeginners.Lib DpdkBeginners.Pool DpdkBeginners.Vxlan

variable {ι : Type*} {tx : TxQueue ι} {E : Env}

/-! ### What the loops offer and free -/

theorem length_natPoolApply (E : Env) (pool : NatPool) (bufs : List (Mbuf × U64)) :
    (natPoolApply E pool bufs).2.length = bufs.length := by
  induction bufs generalizing pool with
  | nil => rfl
  | cons x bufs ih => rw [natPoolApply, List.length_cons, List.length_cons, ih]

theorem kept_dropped_perm {names : List ι} {out : List (Option Mbuf)}
    (h : out.length = names.length) : (kept names out ++ dropped names out).Perm names := by
  induction names generalizing out with
  | nil => exact .refl _
  | cons m names ih =>
    obtain ⟨o, out, rfl⟩ : ∃ o out', out = o :: out' := by
      cases out with
      | nil => simp at h
      | cons o out => exact ⟨o, out, rfl⟩
    have hrest := @ih out (by simpa using h)
    cases o with
    | none =>
      have hkept : kept (m :: names) (none :: out) = kept names out := rfl
      have hdropped : dropped (m :: names) (none :: out) = m :: dropped names out := rfl
      rw [hkept, hdropped]
      exact List.perm_middle.trans (hrest.cons m)
    | some p =>
      have hkept : kept (m :: names) (some p :: out) = m :: kept names out := rfl
      have hdropped : dropped (m :: names) (some p :: out) = dropped names out := rfl
      rw [hkept, hdropped, List.cons_append]
      exact hrest.cons m

theorem refused_sendBurst_eq_nil (tx : TxQueue ι) (out : List ι) :
    (Segregation.sendBurst tx out).flatMap MbufOp.refused = [] ↔ tx.burst out = out.length := by
  unfold Segregation.sendBurst
  by_cases hpos : 0 < out.length
  · rw [if_pos hpos]
    simpa using refused_send_eq_nil tx [out]
  · have hle := tx.burst_le out
    rw [if_neg hpos, List.flatMap_nil]
    exact ⟨fun _ => by omega, fun _ => rfl⟩

theorem freed_sendBurst (tx : TxQueue ι) (out : List ι) :
    (Segregation.sendBurst tx out).flatMap MbufOp.freed = [] := by
  unfold Segregation.sendBurst
  split_ifs <;> rfl

/-- The headroom of a received mbuf is long enough for the headers. -/
theorem vxlanIteration_eq (E : Env) (tx : TxQueue ι) (bufs : List (ι × RxPktmbuf)) :
    ∃ pkts, vxlanIteration E tx bufs =
      some (pkts, (bufs.map Prod.fst).map fun m => tx.send [m]) := by
  induction bufs with
  | nil => exact ⟨[], rfl⟩
  | cons x bufs ih =>
    obtain ⟨m, buf⟩ := x
    obtain ⟨pkts, hpkts⟩ := ih
    have hforward : ∃ pkt, forward E buf.mbuf = some pkt := by
      rw [forward_eq]
      by_cases hret : (vxlanDecap buf.mbuf).1 = 0
      · exact ⟨_, if_pos hret⟩
      · rw [if_neg hret, vxlanDecap_snd_of_ne hret]
        refine vxlanEncap_of_le E ?_
        rw [buf.headroom]
        decide
    obtain ⟨pkt, hpkt⟩ := hforward
    refine ⟨pkt :: pkts, ?_⟩
    rw [vxlanIteration, hpkt]
    dsimp only
    rw [hpkts]
    rfl

/-! ### The four loops -/

section Loops

variable [DecidableEq ι]

theorem version5_owned (E : Env) (hz now : U64) (tx : TxQueue ι) (pool : NatPool)
    {bufs : List (ι × Mbuf × U64)} (hnodup : (bufs.map Prod.fst).Nodup) :
    OwnedOnce (bufs.map Prod.fst) (version5Iteration E hz now tx pool bufs).2 ↔
      ∀ m ∈ kept (bufs.map Prod.fst) (natPoolApply E (beforeApply hz now pool) (bufs.map Prod.snd)).2,
        tx.burst [m] = 1 := by
  by_cases hpos : 0 < bufs.length
  · set names := bufs.map Prod.fst with hnames
    set out := (natPoolApply E (beforeApply hz now pool) (bufs.map Prod.snd)).2 with hout
    have hlen : out.length = names.length := by
      rw [hout, length_natPoolApply, hnames, List.length_map, List.length_map]
    have hops : (version5Iteration E hz now tx pool bufs).2 =
        (dropped names out).map .free ++ (kept names out).map fun m => tx.send [m] := by
      rw [version5Iteration, if_pos hpos]
    rw [hops, ownedOnce_iff hnodup, List.flatMap_append, refused_frees, List.nil_append,
      refused_singles_eq_nil]
    rw [List.flatMap_append, List.flatMap_append, offered_frees, offered_singles, freed_frees,
      freed_singles, List.nil_append, List.append_nil]
    exact kept_dropped_perm hlen
  · obtain rfl : bufs = [] := List.length_eq_zero_iff.1 (Nat.eq_zero_of_not_pos hpos)
    simp [OwnedOnce, kept]

theorem segregation_owned {mtod : ι → Mbuf} {evs : List (List ι × TxQueue ι)}
    {s : Segregation.State ι} {bufs : List ι} (tx : TxQueue ι)
    (h : Run (Segregation.Step mtod) Segregation.init evs s)
    (hb : bufs.length ≤ Segregation.burstSize) (hnodup : bufs.Nodup) :
    OwnedOnce bufs (Segregation.iteration mtod tx bufs s).2 ↔
      tx.burst (Segregation.controlPackets mtod bufs) =
          (Segregation.controlPackets mtod bufs).length ∧
        tx.burst (Segregation.dataPackets mtod bufs) =
          (Segregation.dataPackets mtod bufs).length := by
  have hs := Segregation.run_inv h
  rw [Segregation.iteration_eq hs.controlRing hs.dataRing hb, ownedOnce_iff hnodup,
    List.flatMap_append, List.append_eq_nil_iff, refused_sendBurst_eq_nil, refused_sendBurst_eq_nil]
  simp only [List.flatMap_append, Segregation.offered_sendBurst, freed_sendBurst, List.append_nil]
  exact List.filter_append_perm _ _

theorem singles_owned (tx : TxQueue ι) {names : List ι} (hnodup : names.Nodup) :
    OwnedOnce names (names.map fun m => tx.send [m]) ↔ ∀ m ∈ names, tx.burst [m] = 1 := by
  rw [ownedOnce_iff hnodup, refused_singles_eq_nil]
  rw [offered_singles, freed_singles, List.append_nil]

theorem staticNat_owned (E : Env) (tx : TxQueue ι) {bufs : List (ι × Mbuf)}
    (hnodup : (bufs.map Prod.fst).Nodup) :
    OwnedOnce (bufs.map Prod.fst) (staticNatIteration E tx bufs).2 ↔
      tx.burst (bufs.map Prod.fst) = (bufs.map Prod.fst).length := by
  unfold staticNatIteration
  by_cases hzero : bufs.length = 0
  · obtain rfl : bufs = [] := List.length_eq_zero_iff.1 hzero
    have hle := tx.burst_le []
    simpa [OwnedOnce] using hle
  · rw [if_neg hzero, ownedOnce_iff hnodup]
    · simpa using refused_send_eq_nil tx [bufs.map Prod.fst]
    · simp [TxQueue.send, MbufOp.offered, MbufOp.freed]

/-- **Ownership in the forwarding loops.**  Every mbuf received is accepted or freed exactly once, by the
end of the iteration, if and only if the transmit queue accepts all that the loop offers it: in `version5`
each packet that the pool has not dropped, in `control_data_segregation` the packets of each class, in
`vxlan` each packet and in `static_nat` the burst. -/
theorem owned_iff_accepted (E : Env) (tx : TxQueue ι) :
    (∀ hz now pool (bufs : List (ι × Mbuf × U64)), (bufs.map Prod.fst).Nodup →
      (OwnedOnce (bufs.map Prod.fst) (version5Iteration E hz now tx pool bufs).2 ↔
        ∀ m ∈ kept (bufs.map Prod.fst)
          (natPoolApply E (beforeApply hz now pool) (bufs.map Prod.snd)).2, tx.burst [m] = 1)) ∧
    (∀ (mtod : ι → Mbuf) evs s bufs, Run (Segregation.Step mtod) Segregation.init evs s →
      bufs.length ≤ Segregation.burstSize → bufs.Nodup →
      (OwnedOnce bufs (Segregation.iteration mtod tx bufs s).2 ↔
        tx.burst (Segregation.controlPackets mtod bufs) =
            (Segregation.controlPackets mtod bufs).length ∧
          tx.burst (Segregation.dataPackets mtod bufs) =
            (Segregation.dataPackets mtod bufs).length)) ∧
    (∀ bufs : List (ι × RxPktmbuf), (bufs.map Prod.fst).Nodup →
      ∃ pkts ops, vxlanIteration E tx bufs = some (pkts, ops) ∧
        (OwnedOnce (bufs.map Prod.fst) ops ↔ ∀ m ∈ bufs.map Prod.fst, tx.burst [m] = 1)) ∧
    ∀ bufs : List (ι × Mbuf), (bufs.map Prod.fst).Nodup →
      (OwnedOnce (bufs.map Prod.fst) (staticNatIteration E tx bufs).2 ↔
        tx.burst (bufs.map Prod.fst) = (bufs.map Prod.fst).length) := by
  refine ⟨?_, ?_, ?_, ?_⟩
  · intro hz now pool bufs hnodup
    exact version5_owned E hz now tx pool hnodup
  · intro mtod evs s bufs h hb hnodup
    exact segregation_owned tx h hb hnodup
  · intro bufs hnodup
    obtain ⟨pkts, hpkts⟩ := vxlanIteration_eq E tx bufs
    exact ⟨pkts, _, hpkts, singles_owned tx hnodup⟩
  · intro bufs hnodup
    exact staticNat_owned E tx hnodup

end Loops

/-! ### A refused mbuf is lost -/

/-- A queue that is full. -/
def full : TxQueue ι := ⟨fun _ => 0, fun _ => Nat.zero_le _⟩

/-- A frame that is not IPv4. -/
def arpFrame : Mbuf := ⟨fun i => if i = 12 then 0x08 else if i = 13 then 0x06 else 0, 60⟩

/-- The same frame as a driver delivers it. -/
def rxArpFrame : RxPktmbuf := ⟨⟨fun i => arpFrame.data (i - 128), 128, 60, by decide⟩, rfl⟩

/-- A pool of five addresses without static mappings. -/
def fiveAddresses : NatPool := initPool (netAddr 203 0 113 10) 5 1000000000 []

theorem refused_lost :
    ¬ OwnedOnce [0] (version5Iteration ghz 1000000000 0 full fiveAddresses [(0, arpFrame, 0)]).2 ∧
    ¬ OwnedOnce [0] (Segregation.iteration (fun _ => arpFrame) full [0] Segregation.init).2 ∧
    (∃ pkts ops, vxlanIteration ghz full [(0, rxArpFrame)] = some (pkts, ops) ∧
      ¬ OwnedOnce [0] ops) ∧
    ¬ OwnedOnce [0] (staticNatIteration ghz full [(0, arpFrame)]).2 := by
  have hlost : ¬ OwnedOnce [0] [full.send [0]] := fun h => absurd (h 0 (by simp)) (by decide)
  obtain ⟨pkts, hpkts⟩ := vxlanIteration_eq ghz full [(0, rxArpFrame)]
  exact ⟨hlost, hlost, ⟨pkts, _, hpkts, hlost⟩, hlost⟩

/-- A burst of seven: six private hosts, for the five addresses of the pool, and a frame that is not IPv4. -/
def sampleBurst : List (ℕ × Mbuf) := (List.range 7).map fun n =>
  (n, if n = 6 then arpFrame else l4Frame ipprotoUdp (netAddr 192 168 1 (BitVec.ofNat 8 (50 + n)))
    (netAddr 8 8 8 8) (rteCpuToBe16 1000) (rteCpuToBe16 53))

/-- ICMP and data in turn. -/
def samplePackets (n : ℕ) : Mbuf := Segregation.samplePacket (n % 2 = 0)

theorem owned_iff_accepted_takesAll :
    let burst := sampleBurst.map fun x => (x.1, x.2, (0 : U64))
    let s := (Segregation.iteration samplePackets Segregation.takesAll [0, 1, 2] Segregation.init).1
    (OwnedOnce (List.range 7) (version5Iteration ghz 1000000000 0 Segregation.takesAll fiveAddresses burst).2 ∧
      dropped (List.range 7)
        (natPoolApply ghz (beforeApply 1000000000 0 fiveAddresses) (burst.map Prod.snd)).2 = [5]) ∧
    OwnedOnce [3, 4, 5] (Segregation.iteration samplePackets Segregation.takesAll [3, 4, 5] s).2 ∧
    (∃ pkts ops, vxlanIteration ghz Segregation.takesAll [(0, rxArpFrame), (1, rxArpFrame)] = some (pkts, ops) ∧
      OwnedOnce [0, 1] ops) ∧
    OwnedOnce (List.range 7) (staticNatIteration ghz Segregation.takesAll sampleBurst).2 := by
  intro burst s
  obtain ⟨hversion5, hsegregation, hvxlan, hstatic⟩ := @owned_iff_accepted ℕ _ ghz Segregation.takesAll
  have hrun : Run (Segregation.Step samplePackets) Segregation.init [([0, 1, 2], Segregation.takesAll)] s :=
    Run.single_iff.2 ⟨by decide, rfl⟩
  refine ⟨⟨?_, by decide +kernel⟩, ?_, ?_, ?_⟩
  · exact (hversion5 1000000000 0 fiveAddresses burst (by decide)).2 fun _ _ => rfl
  · exact (hsegregation samplePackets _ s [3, 4, 5] hrun (by decide) (by decide)).2 ⟨rfl, rfl⟩
  · obtain ⟨pkts, ops, heq, hiff⟩ := hvxlan [(0, rxArpFrame), (1, rxArpFrame)] (by decide)
    exact ⟨pkts, ops, heq, hiff.2 fun _ _ => rfl⟩
  · exact (hstatic sampleBurst (by decide)).2 rfl

end DpdkBeginners.Forwarding
