import DpdkBeginners.Forwarding.Checksums
import DpdkBeginners.LoadBalancer.Backends
import DpdkBeginners.Napt.Checksum

/-!
# The bytes that a rewrite changes

`rewrite_and_recalc` of `nat_project/version5`, `rewrite_out` and `rewrite_in` of `nat_project/version6` and
`rewrite_l4_packet` of the load balancer take the TCP or UDP header to follow 20 bytes of IPv4 header, in
every packet.  `classify_packet` of `control_data_segregation` looks at the length of the header, and where
it is longer, or where the packet is a later fragment, the four functions change bytes of the options or of
the payload instead; and where the packet ends before the TCP or UDP header does, bytes behind it (`rewrites_in_place`).
-/

namespace DpdkBeginners.Forwarding

open DpdkBeginners.Rte DpdkBeginners.Pool DpdkBeginners.LoadBalancer DpdkBeginners.Napt

variable {m m' : Mbuf} {addr q i : ℕ} {port : Option ℕ} {timerHz : U64}

/-! ### The translated fields -/

/-- An IPv4 packet with a header of 20 to 60 bytes that lies in the frame. -/
structure WellFormed (m : Mbuf) : Prop where
  ipv4 : m.IsIpv4
  version : (m.data 14).extractLsb' 4 4 = (4 : BitVec 4)
  hihl : 20 ≤ hdrLen m.data ipOff
  total : hdrLen m.data ipOff ≤ totalLength m.data ipOff
  frame : ipOff + totalLength m.data ipOff ≤ m.dataLen

/-- The packet carries a TCP or UDP header, all of it. -/
structure CarriesL4 (m : Mbuf) : Prop where
  proto : IsTcpUdp m.nextProtoId
  firstFragment : fragmentOffset m.data ipOff = 0
  l4Header : (if m.nextProtoId = ipprotoTcp then 20 else 8) ≤ l4Len m.data ipOff

/-- `14 + 4 * IHL`: where the TCP or UDP header starts. -/
def l4Start (m : Mbuf) : ℕ := ipOff + hdrLen m.data ipOff

/-- The byte `i` is one of the `n` bytes from `o` on. -/
def InField (o n i : ℕ) : Prop := o ≤ i ∧ i < o + n

/-- The bytes that may change: those of the address at `addr` and of the header checksum and, if the packet
carries a TCP or UDP header, those of its checksum and of the port that is `port` bytes into it. -/
def Translated (m : Mbuf) (addr : ℕ) (port : Option ℕ) (i : ℕ) : Prop :=
  InField addr 4 i ∨ InField 24 2 i ∨
    CarriesL4 m ∧
      (InField (l4Start m + 2 * cksumWord m.nextProtoId) 2 i ∨ ∃ p ∈ port, InField (l4Start m + p) 2 i)

/-- No other byte has changed. -/
def OnlyTranslated (m m' : Mbuf) (addr : ℕ) (port : Option ℕ) : Prop :=
  ∀ i, ¬ Translated m addr port i → m'.data i = m.data i

/-- If it is a TCP or UDP packet, then it carries its header, and where the code takes it to be. -/
def InPlace (m : Mbuf) : Prop := IsTcpUdp m.nextProtoId → hdrLen m.data ipOff = 20 ∧ CarriesL4 m

/-- The fields that the code writes. -/
def Written (m : Mbuf) (addr : ℕ) (port : Option ℕ) (i : ℕ) : Prop :=
  InField addr 4 i ∨ InField 24 2 i ∨ InField (l4Off + 2 * cksumWord m.nextProtoId) 2 i ∨
    ∃ p ∈ port, InField (l4Off + p) 2 i

theorem InPlace.onlyTranslated (h : InPlace m) (hp : IsTcpUdp m.nextProtoId)
    (hkept : ∀ i, ¬ Written m addr port i → m'.data i = m.data i) : OnlyTranslated m m' addr port := by
  obtain ⟨hihl, hcarries⟩ := h hp
  have hstart : l4Start m = l4Off := by rw [l4Start, hihl]
  intro i hi
  apply hkept
  rintro (haddr | hck | hl4 | hport)
  · exact hi (.inl haddr)
  · exact hi (.inr (.inl hck))
  · exact hi (.inr (.inr ⟨hcarries, .inl (by rwa [hstart])⟩))
  · exact hi (.inr (.inr ⟨hcarries, .inr (by rwa [hstart])⟩))

theorem exists_byte_ne {o : ℕ} (h : load16 m'.data o ≠ load16 m.data o) :
    ∃ i, InField o 2 i ∧ m'.data i ≠ m.data i := by
  by_contra hall
  refine h (load16_congr fun i h₁ h₂ => ?_)
  by_contra hne
  exact hall ⟨i, ⟨h₁, h₂⟩, hne⟩

theorem cksumWord_cases (proto : U8) : cksumWord proto = 8 ∨ cksumWord proto = 3 := by
  unfold cksumWord
  split_ifs
  · exact .inl rfl
  · exact .inr rfl

/-- **The other direction**: the word that is written for the port or, where there is none, for the checksum
is a translated one only if the header is in place. -/
theorem inPlace_of_changed (hm : WellFormed m) (haddr : addr = 26 ∨ addr = 30)
    (hq : port = none ∧ q = 2 * cksumWord m.nextProtoId ∨ port = some q ∧ (q = 0 ∨ q = 2))
    (h : OnlyTranslated m m' addr port) (hne : load16 m'.data (l4Off + q) ≠ load16 m.data (l4Off + q)) :
    InPlace m := by
  obtain ⟨i, hi, hbyte⟩ := exists_byte_ne hne
  have htr : Translated m addr port i := by
    by_contra hnot
    exact hbyte (h i hnot)
  have hihl := hm.hihl
  have hword := cksumWord_cases m.nextProtoId
  obtain ⟨x, hx⟩ : ∃ x, hdrLen m.data ipOff = 4 * x := ⟨_, rfl⟩
  have hi₁ : 34 + q ≤ i := hi.1
  have hi₂ : i < 34 + q + 2 := hi.2
  have hstart : l4Start m = 14 + 4 * x := by rw [l4Start, hx]
  intro _
  rcases htr with ⟨h₁, h₂⟩ | ⟨h₁, h₂⟩ | ⟨hcarries, hl4⟩
  · omega
  · omega
  · refine ⟨?_, hcarries⟩
    rw [hstart] at hl4
    rcases hq with ⟨rfl, hq⟩ | ⟨rfl, hq⟩
    · rcases hl4 with ⟨h₁, h₂⟩ | ⟨p, hp, -⟩
      · omega
      · cases hp
    · rcases hl4 with ⟨h₁, h₂⟩ | ⟨p, hp, h₁, h₂⟩
      · omega
      · obtain rfl := Option.some.inj hp
        omega

/-! ### What the four functions keep -/

theorem fillHdrFirst_apply (E : Env) {k : ℕ} (h : ¬ InField 24 2 i) (h' : ¬ InField (l4Off + 2 * k) 2 i) :
    (fillHdrFirst E m k).data i = m.data i := by
  change ¬ (24 ≤ i ∧ i < 24 + 2) at h
  change ¬ (34 + 2 * k ≤ i ∧ i < 34 + 2 * k + 2) at h'
  show fillUdptcp E (fillIpv4 E m.data 14) 14 k i = m.data i
  rw [fillUdptcp_apply _ (by omega), fillIpv4_apply _ (by omega)]

theorem fillL4First_apply (E : Env) {k : ℕ} (h : ¬ InField 24 2 i) (h' : ¬ InField (l4Off + 2 * k) 2 i) :
    (fillL4First E m k).data i = m.data i := by
  change ¬ (24 ≤ i ∧ i < 24 + 2) at h
  change ¬ (34 + 2 * k ≤ i ∧ i < 34 + 2 * k + 2) at h'
  show fillIpv4 E (fillUdptcp E m.data 14 k) 14 i = m.data i
  rw [fillIpv4_apply _ (by omega), fillUdptcp_apply _ (by omega)]

theorem fillChecksums_data (E : Env) (m : Mbuf) {proto : U8} (hp : IsTcpUdp proto) :
    (fillChecksums E m proto).data = storeCksums E m.data ipOff (cksumWord proto) := by
  rcases hp with rfl | rfl <;> rfl

theorem fillChecksums_apply (E : Env) {proto : U8} (hp : IsTcpUdp proto) (h : ¬ InField 24 2 i)
    (h' : ¬ InField (l4Off + 2 * cksumWord proto) 2 i) : (fillChecksums E m proto).data i = m.data i := by
  change ¬ (24 ≤ i ∧ i < 24 + 2) at h
  change ¬ (34 + 2 * cksumWord proto ≤ i ∧ i < 34 + 2 * cksumWord proto + 2) at h'
  rw [fillChecksums_data E m hp]
  show storeCksums E m.data 14 (cksumWord proto) i = m.data i
  exact storeCksums_apply _ (by omega) (by omega)

theorem store_addr_port {d : Bytes} {addr port : ℕ} (a : U32) (v : U16) (h : ¬ InField addr 4 i)
    (h' : ¬ InField port 2 i) : store16 (store32 d addr a) port v i = d i := by
  unfold InField at h h'
  rw [store16_apply _ (by omega), store32_apply _ (by omega)]

/-- `rewrite_out` writes the source address, the source port and the checksums, `rewrite_in` those of the
destination. -/
theorem rewriteOut_apply (E : Env) {e : NatEntry} (hproto : e.proto = m.nextProtoId)
    (hp : IsTcpUdp m.nextProtoId) (hi : ¬ Written m 26 (some 0) i) :
    (rewriteOut E m e).data i = m.data i := by
  obtain ⟨haddr, hck, hl4, hport⟩ : _ ∧ _ ∧ _ ∧ _ := by simpa only [Written, not_or] using hi
  rw [rewriteOut_eq, hproto, fillChecksums_apply E hp hck hl4]
  exact store_addr_port _ _ haddr fun h => hport ⟨0, rfl, h⟩

theorem rewriteIn_apply (E : Env) {e : NatEntry} (hproto : e.proto = m.nextProtoId)
    (hp : IsTcpUdp m.nextProtoId) (hi : ¬ Written m 30 (some 2) i) :
    (rewriteIn E m e).data i = m.data i := by
  obtain ⟨haddr, hck, hl4, hport⟩ : _ ∧ _ ∧ _ ∧ _ := by simpa only [Written, not_or] using hi
  rw [rewriteIn_eq, hproto, fillChecksums_apply E hp hck hl4]
  exact store_addr_port _ _ haddr fun h => hport ⟨2, rfl, h⟩

theorem rewriteFor_apply (E : Env) (bk : Backend) (hp : IsTcpUdp m.nextProtoId)
    (hi : ¬ Written m 30 (some 2) i) : (rewriteFor E bk m).data i = m.data i := by
  obtain ⟨haddr, hck, hl4, hport⟩ : _ ∧ _ ∧ _ ∧ _ := by simpa only [Written, not_or] using hi
  rw [rewriteFor_eq E bk hp, fillL4First_apply E hck hl4]
  exact store_addr_port _ _ haddr fun h => hport ⟨2, rfl, h⟩

/-- Where the address is. -/
def addrOff (isSrc : Bool) : ℕ := if isSrc then 26 else 30

theorem setAddr_data (m : Mbuf) (newIp : U32) (isSrc : Bool) :
    (setAddr m newIp isSrc).data = store32 m.data (addrOff isSrc) newIp := by
  cases isSrc <;> rfl

theorem setAddr_keeps {newIp : U32} {isSrc : Bool} (h : ¬ InField (addrOff isSrc) 4 i) :
    (setAddr m newIp isSrc).data i = m.data i := by
  unfold InField at h
  rw [setAddr_data, store32_apply _ (by omega)]

theorem rewriteAndRecalc_apply (E : Env) {newIp : U32} {isSrc : Bool} (hp : IsTcpUdp m.nextProtoId)
    (hi : ¬ Written m (addrOff isSrc) none i) : (rewriteAndRecalc E m newIp isSrc).data i = m.data i := by
  obtain ⟨haddr, hck, hl4, -⟩ : _ ∧ _ ∧ _ ∧ _ := by simpa only [Written, not_or] using hi
  change m.nextProtoId = ipprotoTcp ∨ m.nextProtoId = ipprotoUdp at hp
  rw [rewriteAndRecalc_eq, if_pos hp, fillHdrFirst_apply E hck hl4, setAddr_keeps haddr]

theorem rewriteAndRecalc_other (E : Env) {newIp : U32} {isSrc : Bool} (hp : ¬ IsTcpUdp m.nextProtoId) :
    OnlyTranslated m (rewriteAndRecalc E m newIp isSrc) (addrOff isSrc) none := by
  intro i hi
  have haddr : ¬ InField (addrOff isSrc) 4 i := fun h => hi (.inl h)
  have hck : ¬ (24 ≤ i ∧ i < 24 + 2) := fun h => hi (.inr (.inl h))
  change ¬ (m.nextProtoId = ipprotoTcp ∨ m.nextProtoId = ipprotoUdp) at hp
  rw [rewriteAndRecalc_eq, if_neg hp]
  show fillIpv4 E (setAddr m newIp isSrc).data 14 i = m.data i
  rw [fillIpv4_apply _ (by omega), setAddr_keeps haddr]

/-! ### What they change -/

/-- The buffer that the second checksum of `rewrite_and_recalc` is computed from, for a new source address. -/
def beforeL4 (E : Env) (m : Mbuf) (newIp : U32) : Bytes :=
  store16 (fillIpv4 E (setAddr m newIp true).data 14) (34 + 2 * cksumWord m.nextProtoId) 0

theorem beforeL4_apply (E : Env) (m : Mbuf) (newIp : U32) (hi : i < 24 ∨ 26 ≤ i) :
    beforeL4 E m newIp i = store16 (store32 m.data 26 newIp) (34 + 2 * cksumWord m.nextProtoId) 0 i := by
  have hfill : fillIpv4 E (setAddr m newIp true).data 14 i = store32 m.data 26 newIp i :=
    fillIpv4_apply E (by omega)
  unfold beforeL4 store16 Function.update
  split_ifs <;> first | rfl | exact hfill

theorem beforeL4_congr (E : Env) (m : Mbuf) (a b : U32) (hi : i < 24 ∨ 30 ≤ i) :
    beforeL4 E m a i = beforeL4 E m b i := by
  rw [beforeL4_apply E m a (by omega), beforeL4_apply E m b (by omega)]
  unfold store16 Function.update
  split_ifs <;> first | rfl | rw [store32_apply _ (by omega), store32_apply _ (by omega)]

theorem load16_beforeL4 (E : Env) (m : Mbuf) (a : U32) :
    load16 (beforeL4 E m a) 26 = a.extractLsb' 0 16 ∧ load16 (beforeL4 E m a) 28 = a.extractLsb' 16 16 := by
  constructor
  · rw [load16_congr fun i hi _ => beforeL4_apply E m a (.inr hi), load16_store16_of_disjoint _ (by omega),
      store32, load16_store16_of_disjoint _ (by omega), load16_store16]
  · rw [load16_congr fun i hi _ => beforeL4_apply E m a (.inr (by omega)),
      load16_store16_of_disjoint _ (by omega), store32, load16_store16]

theorem rewriteAndRecalc_l4 (E : Env) (newIp : U32) (hp : IsTcpUdp m.nextProtoId) :
    load16 (rewriteAndRecalc E m newIp true).data (l4Off + 2 * cksumWord m.nextProtoId) =
      E.ipv4UdptcpCksum (beforeL4 E m newIp) ipOff l4Off := by
  change m.nextProtoId = ipprotoTcp ∨ m.nextProtoId = ipprotoUdp at hp
  rw [rewriteAndRecalc_eq, if_pos hp]
  exact fillUdptcp_l4 E _ 14 _

/-- **The checksum depends on the address**: for one of two addresses it is not what was there before. -/
theorem exists_cksum_ne (timerHz : U64) (hp : IsTcpUdp m.nextProtoId)
    (hlen : hdrLen m.data ipOff ≤ totalLength m.data ipOff) :
    ∃ newIp, load16 (rewriteAndRecalc (rteDocumented timerHz) m newIp true).data
      (l4Off + 2 * cksumWord m.nextProtoId) ≠ load16 m.data (l4Off + 2 * cksumWord m.nextProtoId) := by
  set E := rteDocumented timerHz with hE
  have hkept : ∀ a, ∀ i < 24, beforeL4 E m a i = m.data i := by
    intro a i hi
    rw [beforeL4_apply E m a (.inl hi), store16_apply _ (by omega), store32_apply _ (by omega)]
  have hlen' : ∀ a, hdrLen (beforeL4 E m a) ipOff ≤ totalLength (beforeL4 E m a) ipOff := by
    intro a
    have hhdr : hdrLen (beforeL4 E m a) ipOff = hdrLen m.data ipOff := hdrLen_congr (hkept a 14 (by omega))
    have htotal : totalLength (beforeL4 E m a) ipOff = totalLength m.data ipOff :=
      totalLength_congr fun i _ hi => hkept a i (by change i < 14 + 4 at hi; omega)
    rwa [hhdr, htotal]
  have hsum : udptcpSum (beforeL4 E m 1) ipOff l4Off = udptcpSum (beforeL4 E m 0) ipOff l4Off + 1 := by
    have hsrc := @udptcpSum_add_src (beforeL4 E m 1) (beforeL4 E m 0) 14 34 (by omega)
      fun i _ hi => beforeL4_congr E m 1 0 (by omega)
    obtain ⟨hlo₁, hhi₁⟩ := load16_beforeL4 E m 1
    obtain ⟨hlo₀, hhi₀⟩ := load16_beforeL4 E m 0
    rw [hlo₁, hhi₁, hlo₀, hhi₀] at hsrc
    simpa using hsrc
  have hproto : beforeL4 E m 1 23 = beforeL4 E m 0 23 := beforeL4_congr E m 1 0 (.inl (by omega))
  have hne : E.ipv4UdptcpCksum (beforeL4 E m 1) ipOff l4Off ≠
      E.ipv4UdptcpCksum (beforeL4 E m 0) ipOff l4Off :=
    ipv4UdptcpCksum_ne timerHz (hlen' 1) (hlen' 0) hproto hsum
  by_contra hall
  refine hne ?_
  have heq : ∀ a, E.ipv4UdptcpCksum (beforeL4 E m a) ipOff l4Off =
      load16 m.data (l4Off + 2 * cksumWord m.nextProtoId) := by
    intro a
    rw [← rewriteAndRecalc_l4 E a hp]
    by_contra hna
    exact hall ⟨a, hna⟩
  rw [heq 1, heq 0]

/-! ### The four functions -/

theorem rewriteAndRecalc_inPlace (timerHz : U64) (hm : WellFormed m) :
    (∀ newIp isSrc, OnlyTranslated m (rewriteAndRecalc (rteDocumented timerHz) m newIp isSrc)
      (addrOff isSrc) none) ↔ InPlace m := by
  constructor
  · intro h hp
    obtain ⟨newIp, hne⟩ := exists_cksum_ne timerHz hp hm.total
    exact inPlace_of_changed hm (.inl rfl) (.inl ⟨rfl, rfl⟩) (h newIp true) hne hp
  · intro h newIp isSrc
    by_cases hp : IsTcpUdp m.nextProtoId
    · exact h.onlyTranslated hp fun i => rewriteAndRecalc_apply _ hp
    · exact rewriteAndRecalc_other _ hp

theorem port_ne (v : U16) : v + 1 ≠ v := by simp

theorem rewriteOut_inPlace (E : Env) (hm : WellFormed m) (hp : IsTcpUdp m.nextProtoId) :
    (∀ e, e.proto = m.nextProtoId → OnlyTranslated m (rewriteOut E m e) 26 (some 0)) ↔ InPlace m := by
  constructor
  · intro h
    set e := newEntry 0 (m.srcPort + 1) 0 0 0 0 m.nextProtoId with he
    have hport : load16 (rewriteOut E m e).data l4Off = m.srcPort + 1 := rewriteOut_srcPort E m e
    refine inPlace_of_changed hm (.inl rfl) (.inr ⟨rfl, .inl rfl⟩) (h e rfl) ?_
    rw [Nat.add_zero, hport]
    exact port_ne _
  · intro h e hproto
    exact h.onlyTranslated hp fun i => rewriteOut_apply E hproto hp

theorem rewriteIn_inPlace (E : Env) (hm : WellFormed m) (hp : IsTcpUdp m.nextProtoId) :
    (∀ e, e.proto = m.nextProtoId → OnlyTranslated m (rewriteIn E m e) 30 (some 2)) ↔ InPlace m := by
  constructor
  · intro h
    set e := newEntry 0 0 0 (m.dstPort + 1) 0 0 m.nextProtoId with he
    have hport : load16 (rewriteIn E m e).data (l4Off + 2) = m.dstPort + 1 :=
      congrArg Header.dstPort (rewriteIn_header E m e)
    refine inPlace_of_changed hm (.inr rfl) (.inr ⟨rfl, .inr rfl⟩) (h e rfl) ?_
    rw [hport]
    exact port_ne _
  · intro h e hproto
    exact h.onlyTranslated hp fun i => rewriteIn_apply E hproto hp

theorem rewriteL4Packet_inPlace (E : Env) (hm : WellFormed m) :
    (∀ lb, OnlyTranslated m (rewriteL4Packet E lb m).2.1 30 (some 2)) ↔ InPlace m := by
  constructor
  · intro h hp
    set lb : Lb := { initLb with backends := fun _ => ⟨0, m.dstPort + 1⟩ } with hlb
    have hport : load16 (rewriteL4Packet E lb m).2.1.data (l4Off + 2) = m.dstPort + 1 := by
      rw [rewriteL4Packet_l4 ⟨hm.ipv4, hp⟩]
      exact congrArg Header.dstPort (rewriteFor_header E _ hp)
    refine inPlace_of_changed hm (.inr rfl) (.inr ⟨rfl, .inr rfl⟩) (h lb) ?_ hp
    rw [hport]
    exact port_ne _
  · intro h lb
    by_cases hp : IsTcpUdp m.nextProtoId
    · rw [rewriteL4Packet_l4 ⟨hm.ipv4, hp⟩]
      exact h.onlyTranslated hp fun i => rewriteFor_apply E _ hp
    · rw [rewriteL4Packet_other fun h => hp h.2]
      exact fun i _ => rfl

/-- **Rewriting in place.**  On every well-formed packet each of the four functions, whatever it is called with, changes
the translated fields only if and only if a TCP or UDP packet carries its header, where the code takes it to be.
`rewrite_out` and `rewrite_in` are called for TCP and UDP packets, with an entry of their protocol. -/
theorem rewrites_in_place (timerHz : U64) (hm : WellFormed m) :
    ((∀ newIp isSrc, OnlyTranslated m (rewriteAndRecalc (rteDocumented timerHz) m newIp isSrc)
        (addrOff isSrc) none) ↔ InPlace m) ∧
    (IsTcpUdp m.nextProtoId → ((∀ e, e.proto = m.nextProtoId →
        OnlyTranslated m (rewriteOut (rteDocumented timerHz) m e) 26 (some 0)) ↔ InPlace m)) ∧
    (IsTcpUdp m.nextProtoId → ((∀ e, e.proto = m.nextProtoId →
        OnlyTranslated m (rewriteIn (rteDocumented timerHz) m e) 30 (some 2)) ↔ InPlace m)) ∧
    ((∀ lb, OnlyTranslated m (rewriteL4Packet (rteDocumented timerHz) lb m).2.1 30 (some 2)) ↔
      InPlace m) :=
  ⟨rewriteAndRecalc_inPlace timerHz hm, rewriteOut_inPlace _ hm, rewriteIn_inPlace _ hm,
    rewriteL4Packet_inPlace _ hm⟩

theorem wellFormed_hostFrame : WellFormed hostFrame where
  ipv4 := complete_hostFrame.ipv4
  version := by decide
  hihl := by decide
  total := by decide
  frame := by decide

theorem rewrites_in_place_hostFrame :
    OnlyTranslated hostFrame (rewriteAndRecalc ghz hostFrame (netAddr 203 0 113 10) true) 26 none ∧
    OnlyTranslated hostFrame
      (rewriteOut ghz hostFrame (newEntry 0 (rteCpuToBe16 1025) 0 0 0 0 ipprotoUdp)) 26 (some 0) ∧
    OnlyTranslated hostFrame
      (rewriteIn ghz hostFrame (newEntry 0 0 0 (rteCpuToBe16 53) 0 0 ipprotoUdp)) 30 (some 2) ∧
    OnlyTranslated hostFrame (rewriteL4Packet ghz initLb hostFrame).2.1 30 (some 2) := by
  have hplace : InPlace hostFrame := fun hp => ⟨by decide, hp, by decide, by decide⟩
  have hp : IsTcpUdp hostFrame.nextProtoId := complete_hostFrame.proto
  obtain ⟨hrecalc, hout, hin, hlb⟩ := rewrites_in_place 1000000000 wellFormed_hostFrame
  exact ⟨hrecalc.2 hplace _ true, (hout hp).2 hplace _ (by decide), (hin hp).2 hplace _ (by decide),
    hlb.2 hplace initLb⟩

/-- A UDP packet with four bytes of options, each a no-operation. -/
def optionsFrame : Mbuf where
  data i :=
    if i = 14 then 0x46
    else if i = 17 then 32
    else if i < 34 then hostFrame.data i
    else if i < 38 then 1
    else hostFrame.data (i - 4)
  dataLen := 46

theorem wellFormed_optionsFrame : WellFormed optionsFrame where
  ipv4 := by decide
  version := by decide
  hihl := by decide
  total := by decide
  frame := by decide

/-- Its options and its destination port are not translated fields, or not those of `rewrite_and_recalc`. -/
theorem not_translated_optionsFrame {addr : ℕ} (haddr : addr + 4 ≤ 34)
    (hi : 34 ≤ i ∧ i < 38 ∨ port = none ∧ i = 40) : ¬ Translated optionsFrame addr port i := by
  have hstart : l4Start optionsFrame = 38 := by decide
  have hword : cksumWord optionsFrame.nextProtoId = 3 := by decide
  unfold Translated InField
  rw [hstart, hword]
  rintro (h | h | ⟨-, h | ⟨p, hp, h⟩⟩)
  · omega
  · omega
  · omega
  · rcases hi with hi | ⟨rfl, -⟩
    · omega
    · cases hp

/-- **Options are overwritten**, and by `rewrite_and_recalc` the destination port. -/
theorem options_overwritten :
    WellFormed optionsFrame ∧
    ¬ OnlyTranslated optionsFrame
      (rewriteAndRecalc ghz optionsFrame (netAddr 203 0 113 10) true) (addrOff true) none ∧
    ¬ OnlyTranslated optionsFrame
      (rewriteOut ghz optionsFrame (newEntry 0 (rteCpuToBe16 1025) 0 0 0 0 ipprotoUdp)) 26 (some 0) ∧
    ¬ OnlyTranslated optionsFrame
      (rewriteIn ghz optionsFrame (newEntry 0 0 0 (rteCpuToBe16 53) 0 0 ipprotoUdp)) 30 (some 2) ∧
    ¬ OnlyTranslated optionsFrame (rewriteL4Packet ghz initLb optionsFrame).2.1 30 (some 2) := by
  refine ⟨wellFormed_optionsFrame, ?_, ?_, ?_, ?_⟩
  · intro h
    exact absurd (h 40 (not_translated_optionsFrame (by decide) (.inr ⟨rfl, rfl⟩))) (by decide)
  · intro h
    exact absurd (h 34 (not_translated_optionsFrame (by decide) (.inl (by decide)))) (by decide)
  · intro h
    exact absurd (h 36 (not_translated_optionsFrame (by decide) (.inl (by decide)))) (by decide)
  · intro h
    exact absurd (h 36 (not_translated_optionsFrame (by decide) (.inl (by decide)))) (by decide)

end DpdkBeginners.Forwarding
