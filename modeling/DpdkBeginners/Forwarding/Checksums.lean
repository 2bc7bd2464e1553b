import DpdkBeginners.LoadBalancer.Defs
import DpdkBeginners.Pool.Packet
import DpdkBeginners.Rte.Cksum

/-!
# Checksums that are zeroed before they are computed

`rewrite_and_recalc` of `nat_project/version5` and `rewrite_l4_packet` of the load balancer zero each checksum
before they compute it, so it verifies whatever was there before.  The two do it in opposite orders, which
makes no difference: neither checksum covers the other.
-/

namespace DpdkBeginners.Forwarding

open DpdkBeginners.Rte DpdkBeginners.Pool DpdkBeginners.LoadBalancer

variable {m m' : Mbuf} {k : ℕ} {timerHz : U64}

/-! ### Both orders -/

/-- Both checksums verify, and the one of a UDP packet is not zero. -/
structure Verified (m : Mbuf) : Prop where
  hdr : Checks (ipv4Sum m.data ipOff)
  l4 : Checks (udptcpSum m.data ipOff l4Off)
  sent : m.nextProtoId = ipprotoUdp → m.dgramCksum ≠ 0

/-- What the two checksums need: an IPv4 header of 20 bytes, and a TCP or UDP message that has a `k`-th word,
where its checksum is. -/
structure HasCksums (m : Mbuf) (k : ℕ) : Prop where
  hihl : hdrLen m.data ipOff = 20
  word : 2 * k + 2 ≤ l4Len m.data ipOff
  proto : m.nextProtoId ≠ 0
  udp : m.nextProtoId = ipprotoUdp → k = 3

theorem HasCksums.congr (h : HasCksums m k) (heq : ∀ i < 24, m'.data i = m.data i) :
    HasCksums m' k := by
  have hhdr : hdrLen m'.data ipOff = hdrLen m.data ipOff := hdrLen_congr (heq 14 (by omega))
  have hlen : l4Len m'.data ipOff = l4Len m.data ipOff :=
    l4Len_congr fun i _ hi => heq i (by change i < 14 + 4 at hi; omega)
  have hproto : m'.nextProtoId = m.nextProtoId := heq 23 (by omega)
  refine ⟨hhdr.trans h.hihl, ?_, hproto ▸ h.proto, fun hp => h.udp (hproto ▸ hp)⟩
  rw [hlen]
  exact h.word

theorem HasCksums.le (h : HasCksums m k) : hdrLen m.data ipOff ≤ totalLength m.data ipOff := by
  have hword := h.word
  unfold l4Len at hword
  omega

/-- The header checksum and then the one of the message, as in `rewrite_and_recalc`. -/
def fillHdrFirst (E : Env) (m : Mbuf) (k : ℕ) : Mbuf :=
  { m with data := fillUdptcp E (fillIpv4 E m.data ipOff) ipOff k }

/-- The checksum of the message and then the one of the header, as in `rewrite_l4_packet`. -/
def fillL4First (E : Env) (m : Mbuf) (k : ℕ) : Mbuf :=
  { m with data := fillIpv4 E (fillUdptcp E m.data ipOff k) ipOff }

theorem HasCksums.verified_hdrFirst (h : HasCksums m k) :
    Verified (fillHdrFirst (rteDocumented timerHz) m k) := by
  set d := fillIpv4 (rteDocumented timerHz) m.data ipOff with hd
  have h' : HasCksums { m with data := d } k :=
    h.congr fun i hi => fillIpv4_apply _ (.inl (by show i < 14 + 10; omega))
  have hkept : ∀ i < 34, fillUdptcp (rteDocumented timerHz) d ipOff k i = d i :=
    fun i hi => fillUdptcp_apply _ (.inl (by show i < 14 + 20 + 2 * k; omega))
  refine ⟨?_, checks_fillUdptcp timerHz h'.hihl h'.word h'.proto, ?_⟩
  · show Checks (ipv4Sum (fillUdptcp _ d ipOff k) ipOff)
    rw [← ipv4Sum_congr (fun i _ hi => (hkept i hi).symm) h'.hihl]
    exact checks_fillIpv4 timerHz (Nat.le_of_eq h.hihl.symm)
  · intro hp
    have hudp : d 23 = ipprotoUdp := (hkept 23 (by omega)).symm.trans hp
    obtain rfl := h'.udp hudp
    exact fillUdptcp_ne_zero timerHz h'.le hudp

theorem HasCksums.verified_l4First (h : HasCksums m k) :
    Verified (fillL4First (rteDocumented timerHz) m k) := by
  set d := fillUdptcp (rteDocumented timerHz) m.data ipOff k with hd
  have hkept : ∀ i < 34, d i = m.data i :=
    fun i hi => fillUdptcp_apply _ (.inl (by show i < 14 + 20 + 2 * k; omega))
  have hkept' : ∀ i, i < 24 ∨ 26 ≤ i → fillIpv4 (rteDocumented timerHz) d ipOff i = d i :=
    fun i hi => fillIpv4_apply _ (by show i < 14 + 10 ∨ 14 + 12 ≤ i; omega)
  have h' : HasCksums { m with data := d } k := h.congr fun i hi => hkept i (by omega)
  refine ⟨checks_fillIpv4 timerHz (Nat.le_of_eq h'.hihl.symm), ?_, ?_⟩
  · show Checks (udptcpSum (fillIpv4 _ d ipOff) ipOff l4Off)
    unfold fillIpv4
    rw [udptcpSum_store_hdrChecksum, udptcpSum_store_hdrChecksum]
    exact checks_fillUdptcp timerHz h.hihl h.word h.proto
  · intro hp
    have hudp : m.data 23 = ipprotoUdp := by
      rw [← hkept 23 (by omega), ← hkept' 23 (by omega)]
      exact hp
    obtain rfl := h.udp hudp
    have hne : load16 d 40 ≠ 0 := fillUdptcp_ne_zero timerHz h.le hudp
    show load16 (fillIpv4 _ d ipOff) 40 ≠ 0
    rwa [load16_congr fun i hi _ => hkept' i (by omega)]

/-! ### The two functions -/

/-- The word of a TCP or UDP message that is its checksum. -/
def cksumWord (proto : U8) : ℕ := if proto = ipprotoTcp then 8 else 3

theorem hasCksums_of_complete (hm : m.Complete) : HasCksums m (cksumWord m.nextProtoId) := by
  have hihl : hdrLen m.data ipOff = 20 := by
    rw [hdrLen, hm.versionIhl]
    rfl
  have hlen := hm.l4Header
  have hzero := proto_ne_zero hm.proto
  unfold cksumWord
  rcases hm.proto with hp | hp
  · rw [if_pos hp] at hlen ⊢
    refine ⟨hihl, Nat.le_trans (by omega) hlen, hzero, fun hudp => ?_⟩
    exact absurd hp (ne_tcp_of_udp hudp)
  · have hnot := ne_tcp_of_udp hp
    rw [if_neg hnot] at hlen ⊢
    exact ⟨hihl, Nat.le_trans (by omega) hlen, hzero, fun _ => rfl⟩

/-- The address is set. -/
def setAddr (m : Mbuf) (newIp : U32) (isSrc : Bool) : Mbuf :=
  if isSrc then m.setSrcAddr newIp else m.setDstAddr newIp

theorem setAddr_apply (m : Mbuf) (newIp : U32) (isSrc : Bool) {i : ℕ} (hi : i < 26 ∨ 34 ≤ i) :
    (setAddr m newIp isSrc).data i = m.data i := by
  cases isSrc with
  | false =>
    show store32 m.data 30 newIp i = m.data i
    exact store32_apply _ (by omega)
  | true =>
    show store32 m.data 26 newIp i = m.data i
    exact store32_apply _ (by omega)

theorem rewriteAndRecalc_eq (E : Env) (m : Mbuf) (newIp : U32) (isSrc : Bool) :
    rewriteAndRecalc E m newIp isSrc =
      if m.nextProtoId = ipprotoTcp ∨ m.nextProtoId = ipprotoUdp then
        fillHdrFirst E (setAddr m newIp isSrc) (cksumWord m.nextProtoId)
      else { m with data := fillIpv4 E (setAddr m newIp isSrc).data ipOff } := by
  have hproto : ∀ v w, (((setAddr m newIp isSrc).setHdrChecksum v).setHdrChecksum w).nextProtoId =
      m.nextProtoId := by
    intro v w
    show store16 (store16 (setAddr m newIp isSrc).data 24 v) 24 w 23 = m.data 23
    rw [store16_apply _ (by omega), store16_apply _ (by omega), setAddr_apply _ _ _ (by omega)]
  have hdata : ∀ d, ({ setAddr m newIp isSrc with data := d } : Mbuf) = { m with data := d } := by
    intro d
    cases isSrc <;> rfl
  have hset : (if isSrc then m.setSrcAddr newIp else m.setDstAddr newIp) = setAddr m newIp isSrc := rfl
  unfold rewriteAndRecalc cksumWord
  simp only [hset, hproto]
  by_cases htcp : m.nextProtoId = ipprotoTcp
  · rw [if_pos htcp, if_pos (.inl htcp), if_pos htcp]
    rfl
  · by_cases hudp : m.nextProtoId = ipprotoUdp
    · rw [if_neg htcp, if_pos hudp, if_pos (.inr hudp), if_neg htcp]
      rfl
    · rw [if_neg htcp, if_neg hudp, if_neg (not_or.2 ⟨htcp, hudp⟩), ← hdata]
      rfl

theorem rewriteFor_eq (E : Env) (bk : Backend)
    (hp : m.nextProtoId = ipprotoTcp ∨ m.nextProtoId = ipprotoUdp) :
    rewriteFor E bk m =
      fillL4First E ((m.setDstAddr bk.ip).setDstPort bk.port) (cksumWord m.nextProtoId) := by
  have hproto : (m.setDstAddr bk.ip).nextProtoId = m.nextProtoId :=
    congrArg Header.proto (m.header_setDstAddr bk.ip)
  unfold rewriteFor cksumWord
  simp only [hproto]
  by_cases htcp : m.nextProtoId = ipprotoTcp
  · rw [if_pos htcp, if_pos htcp]
    rfl
  · rw [if_neg htcp, if_pos (hp.resolve_left htcp), if_neg htcp]
    rfl

/-- **Recalculated checksums.**  A complete packet leaves `rewrite_and_recalc` and `rewrite_l4_packet` with
two checksums that verify, whatever they were on arrival; a packet of another protocol leaves
`rewrite_and_recalc` with a header checksum that verifies. -/
theorem recalculated_checksums (timerHz : U64) :
    (∀ (m : Mbuf) (newIp : U32) (isSrc : Bool), m.Complete →
      Verified (rewriteAndRecalc (rteDocumented timerHz) m newIp isSrc)) ∧
    (∀ (m : Mbuf) (newIp : U32) (isSrc : Bool), 20 ≤ hdrLen m.data ipOff →
      m.nextProtoId ≠ ipprotoTcp → m.nextProtoId ≠ ipprotoUdp →
        Checks (ipv4Sum (rewriteAndRecalc (rteDocumented timerHz) m newIp isSrc).data ipOff)) ∧
    ∀ (lb : Lb) (m : Mbuf), m.Complete →
      Verified (rewriteL4Packet (rteDocumented timerHz) lb m).2.1 := by
  refine ⟨?_, ?_, ?_⟩
  · intro m newIp isSrc hm
    have hc : HasCksums (setAddr m newIp isSrc) (cksumWord m.nextProtoId) :=
      (hasCksums_of_complete hm).congr fun i hi => setAddr_apply m newIp isSrc (by omega)
    rw [rewriteAndRecalc_eq, if_pos hm.proto]
    exact hc.verified_hdrFirst
  · intro m newIp isSrc hihl htcp hudp
    rw [rewriteAndRecalc_eq, if_neg (not_or.2 ⟨htcp, hudp⟩)]
    apply checks_fillIpv4
    rwa [hdrLen_congr (setAddr_apply m newIp isSrc (by show 14 < 26 ∨ 34 ≤ 14; omega))]
  · intro lb m hm
    have hl4 : ¬ (m.nextProtoId ≠ ipprotoTcp ∧ m.nextProtoId ≠ ipprotoUdp) :=
      fun h => hm.proto.elim h.1 h.2
    have hc : ∀ ip port,
        HasCksums ((m.setDstAddr ip).setDstPort port) (cksumWord m.nextProtoId) := by
      intro ip port
      refine (hasCksums_of_complete hm).congr fun i hi => ?_
      show store16 (store32 m.data 30 ip) 36 port i = m.data i
      rw [store16_apply _ (by omega), store32_apply _ (by omega)]
    rw [rewriteL4Packet, if_neg (not_not.2 hm.ipv4), if_neg hl4]
    show Verified (rewriteFor _ _ m)
    rw [rewriteFor_eq _ _ hm.proto]
    exact (hc _ _).verified_l4First

/-- A UDP packet from a private host. -/
def hostFrame : Mbuf := frame (netAddr 192 168 1 50) (netAddr 8 8 8 8)

theorem complete_hostFrame : hostFrame.Complete where
  ipv4 := frame_isIpv4 ..
  versionIhl := by decide
  unfragmented := by decide
  proto := by decide
  l4Header := by decide
  frame := by decide

theorem recalculated_checksums_hostFrame :
    Verified (rewriteAndRecalc ghz hostFrame (netAddr 203 0 113 10) true) ∧
      Checks (ipv4Sum (rewriteAndRecalc ghz (l4Base 1) (netAddr 203 0 113 10) true).data ipOff) ∧
      Verified (rewriteL4Packet ghz initLb hostFrame).2.1 := by
  obtain ⟨hsrc, hother, hlb⟩ := recalculated_checksums 1000000000
  exact ⟨hsrc _ _ _ complete_hostFrame, hother _ _ _ (by decide) (by decide) (by decide),
    hlb _ _ complete_hostFrame⟩

end DpdkBeginners.Forwarding
