import DpdkBeginners.Napt.Flows
import DpdkBeginners.Rte.Cksum

/-!
# The checksums of translated packets

`rewrite_out` and `rewrite_in` compute both checksums with the old values still in their fields.  DPDK's
functions sum up what they find there, so a new checksum is off by the old one, and it verifies if and
only if the old one was zero modulo 65535.
-/

namespace DpdkBeginners.Napt

open DpdkBeginners.Rte DpdkBeginners.Lib

variable {E : Env} {now : ℕ} {o : Outcome} {s : NatState} {m : Mbuf} {k : NatKey} {p : Ptr}
  {e : NatEntry} {r : Result} {ip : U32} {evs : List Event} {proto : U8} {timerHz : U64}

/-! ### The end of the two rewrites -/

/-- What `rewrite_out` and `rewrite_in` do when the address and the port have been set. -/
def fillChecksums (E : Env) (m : Mbuf) (proto : U8) : Mbuf :=
  let m' :=
    if proto = ipprotoTcp then m.setTcpCksum (E.ipv4UdptcpCksum m.data ipOff l4Off)
    else m.setDgramCksum (E.ipv4UdptcpCksum m.data ipOff l4Off)
  m'.setHdrChecksum (E.ipv4Cksum m'.data ipOff)

theorem rewriteOut_eq (E : Env) (m : Mbuf) (e : NatEntry) :
    rewriteOut E m e =
      fillChecksums E ((m.setSrcAddr e.publicIp).setSrcPort e.publicPort) e.proto := rfl

theorem rewriteIn_eq (E : Env) (m : Mbuf) (e : NatEntry) :
    rewriteIn E m e =
      fillChecksums E ((m.setDstAddr e.privateIp).setDstPort e.privatePort) e.proto := rfl

theorem fillChecksums_tcp (E : Env) (m : Mbuf) :
    fillChecksums E m ipprotoTcp = { m with data := storeCksums E m.data ipOff 8 } := rfl

theorem fillChecksums_udp (E : Env) (m : Mbuf) :
    fillChecksums E m ipprotoUdp = { m with data := storeCksums E m.data ipOff 3 } := rfl

/-- Both checksums verify if and only if both fields were blank; `k` is the word of the TCP or UDP message
that the second one is stored to. -/
theorem checksumsOk_storeCksums (timerHz : U64) {k : ℕ} (hihl : hdrLen m.data ipOff = 20)
    (hk : 2 * k + 2 ≤ l4Len m.data ipOff) (hproto : m.nextProtoId ≠ 0)
    (hudp : m.nextProtoId = ipprotoUdp → k = 3) :
    ({ m with data := storeCksums (rteDocumented timerHz) m.data ipOff k } : Mbuf).ChecksumsOk ↔
      Blank m.hdrChecksum ∧ Blank (load16 m.data (l4Off + 2 * k)) := by
  obtain ⟨hhdr, hl4⟩ := checks_storeCksums timerHz hihl hk hproto
  have hbyte : storeCksums (rteDocumented timerHz) m.data ipOff k 23 = m.data 23 := by
    show storeCksums (rteDocumented timerHz) m.data 14 k 23 = m.data 23
    exact storeCksums_apply _ (by omega) (by omega)
  -- a UDP checksum is not sent as zero
  have hsent : ¬ (storeCksums (rteDocumented timerHz) m.data ipOff k 23 = ipprotoUdp ∧
      load16 (storeCksums (rteDocumented timerHz) m.data ipOff k) 40 = 0) := by
    rintro ⟨hp, hzero⟩
    rw [hbyte] at hp
    obtain rfl := hudp hp
    have hle : hdrLen m.data ipOff ≤ totalLength m.data ipOff := by
      unfold l4Len at hk
      omega
    have hstored := storeCksums_l4 (rteDocumented timerHz) m.data ipOff 3
    exact ipv4UdptcpCksum_ne_zero timerHz hle hp (hstored.symm.trans hzero)
  exact and_congr hhdr ((or_iff_right hsent).trans hl4)

theorem fillChecksums_ok (timerHz : U64) (hihl : hdrLen m.data ipOff = 20)
    (hproto : m.nextProtoId = ipprotoTcp ∨ m.nextProtoId = ipprotoUdp)
    (hlen : (if m.nextProtoId = ipprotoTcp then 20 else 8) ≤ l4Len m.data ipOff) :
    (fillChecksums (rteDocumented timerHz) m m.nextProtoId).ChecksumsOk ↔
      Blank m.hdrChecksum ∧ Blank m.l4Cksum := by
  have hzero := proto_ne_zero hproto
  unfold Mbuf.l4Cksum
  rcases hproto with hp | hp
  · rw [if_pos hp] at hlen
    rw [if_pos hp, hp, fillChecksums_tcp]
    apply checksumsOk_storeCksums timerHz hihl (Nat.le_trans (by omega) hlen) hzero
    intro hudp
    exact absurd hp (ne_tcp_of_udp hudp)
  · have hnot := ne_tcp_of_udp hp
    rw [if_neg hnot] at hlen
    rw [if_neg hnot, hp, fillChecksums_udp]
    apply checksumsOk_storeCksums timerHz hihl (Nat.le_trans (by omega) hlen) hzero
    exact fun _ => rfl

/-! ### Setting the address and the port -/

/-- Two packets with the same bytes outside the addresses and the ports. -/
def SameFields (m m' : Mbuf) : Prop := ∀ i, i < 26 ∨ 38 ≤ i → m.data i = m'.data i

theorem SameFields.load16 {m' : Mbuf} (h : SameFields m m') {a : ℕ} (ha : a < 25 ∨ 38 ≤ a) :
    Rte.load16 m.data a = Rte.load16 m'.data a :=
  load16_congr fun i h₁ h₂ => h i (by omega)

theorem sameFields_out (m : Mbuf) (ip : U32) (port : U16) :
    SameFields ((m.setSrcAddr ip).setSrcPort port) m := by
  intro i hi
  show store16 (store32 m.data 26 ip) 34 port i = m.data i
  rw [store16_apply _ (by omega), store32_apply _ (by omega)]

theorem sameFields_in (m : Mbuf) (ip : U32) (port : U16) :
    SameFields ((m.setDstAddr ip).setDstPort port) m := by
  intro i hi
  show store16 (store32 m.data 30 ip) 36 port i = m.data i
  rw [store16_apply _ (by omega), store32_apply _ (by omega)]

theorem fillChecksums_of_complete (timerHz : U64) {m' : Mbuf} (hm : m.Complete) (h : SameFields m' m) :
    (fillChecksums (rteDocumented timerHz) m' m.nextProtoId).ChecksumsOk ↔
      Blank m.hdrChecksum ∧ Blank m.l4Cksum := by
  have hproto : m'.nextProtoId = m.nextProtoId := h 23 (by omega)
  have hhdr : hdrLen m'.data ipOff = hdrLen m.data ipOff := hdrLen_congr (h 14 (by omega))
  have hlen : l4Len m'.data ipOff = l4Len m.data ipOff :=
    l4Len_congr fun i _ hi => h i (.inl (by change i < 14 + 4 at hi; omega))
  have hihl : hdrLen m.data ipOff = 20 := by
    rw [hdrLen, hm.versionIhl]
    rfl
  have hfield : m'.hdrChecksum = m.hdrChecksum := h.load16 (by omega)
  have hl4 : m'.l4Cksum = m.l4Cksum := by
    rw [Mbuf.l4Cksum, Mbuf.l4Cksum, hproto, Mbuf.tcpCksum, Mbuf.dgramCksum, h.load16 (by omega),
      h.load16 (by omega)]
    rfl
  have hok := fillChecksums_ok timerHz (hhdr.trans hihl)
    (hproto ▸ hm.proto) (by rw [hproto, hlen]; exact hm.l4Header)
  rw [hproto] at hok
  rw [hok, hfield, hl4]

/-! ### Emitted packets -/

theorem proto_of_key (h : Run (Step E) (natInit ip) evs s) (hk : parse m = some k)
    (he : s.heap p = some e) (hkey : e.fwdKey = k ∨ e.revKey = k) : e.proto = m.nextProtoId := by
  obtain ⟨-, -, rfl⟩ := parse_eq_some.1 hk
  obtain ⟨k', port, rfl, -, -⟩ := run_flowEntries h p e he
  rcases hkey with hkey | hkey
  · exact congrArg NatKey.proto hkey
  · exact congrArg NatKey.proto hkey

theorem rewritten_of_ret (h : Run (Step E) (natInit ip) evs s)
    (hr : natProcessPacket E now o s m = some r) (hret : r.ret = 0) :
    ∃ e, e.proto = m.nextProtoId ∧ (r.mbuf = rewriteOut E m e ∨ r.mbuf = rewriteIn E m e) := by
  cases natProcessPacket_cases hr with
  | ignored => exact absurd hret (by simp)
  | unmatched => exact absurd hret (by simp)
  | noMemory => exact absurd hret (by simp)
  | @inbound k p e hk _ hp he =>
    obtain ⟨e', he', hrev⟩ := (run_noDangling h).rev k p hp
    obtain rfl := Option.some.inj (he.symm.trans he')
    exact ⟨e, proto_of_key h hk he (.inr hrev), .inr rfl⟩
  | @outbound k p e hk _ hp he =>
    obtain ⟨e', he', hfwd⟩ := (run_noDangling h).fwd k p hp
    obtain rfl := Option.some.inj (he.symm.trans he')
    exact ⟨e, proto_of_key h hk he (.inl hfwd), .inl rfl⟩
  | @opened k p hk =>
    obtain ⟨-, -, rfl⟩ := parse_eq_some.1 hk
    exact ⟨_, rfl, .inl rfl⟩

/-- **Emitted checksums.**  In every state that a run reaches, a complete packet that is sent on has two
checksums that verify if and only if, when it arrived, its header checksum and its TCP or UDP checksum
were zero or all ones. -/
theorem emitted_checksums (h : Run (Step (rteDocumented timerHz)) (natInit ip) evs s)
    (hm : m.Complete) (hr : natProcessPacket (rteDocumented timerHz) now o s m = some r)
    (hret : r.ret = 0) : r.mbuf.ChecksumsOk ↔ Blank m.hdrChecksum ∧ Blank m.l4Cksum := by
  obtain ⟨e, hproto, hmbuf⟩ := rewritten_of_ret h hr hret
  rcases hmbuf with hmbuf | hmbuf
  · rw [hmbuf, rewriteOut_eq, hproto]
    exact fillChecksums_of_complete timerHz hm (sameFields_out m _ _)
  · rw [hmbuf, rewriteIn_eq, hproto]
    exact fillChecksums_of_complete timerHz hm (sameFields_in m _ _)

/-! ### A packet with right checksums -/

/-- A packet of `flowA` with its checksums filled in. -/
def frameA : Mbuf := fillChecksums ghz (keyFrame flowA) ipprotoTcp

theorem frameA_header : frameA.header = (keyFrame flowA).header := by
  show (((keyFrame flowA).setTcpCksum _).setHdrChecksum _).header = _
  rw [Mbuf.header_setHdrChecksum, Mbuf.header_setTcpCksum]

theorem parse_frameA : parse frameA = some flowA := by
  obtain ⟨h₁, h₂, h₃⟩ := parse_eq_some.1 (parse_webFlow (netAddr 10 0 0 1) (netAddr 8 8 8 8))
  have hh := frameA_header
  refine parse_eq_some.2 ⟨?_, ?_, ?_⟩
  · exact (congrArg Header.etherType hh).trans h₁
  · rw [show frameA.nextProtoId = _ from congrArg Header.proto hh]
    exact h₂
  · rw [show flowA = _ from h₃]
    unfold keyOf
    rw [show frameA.nextProtoId = _ from congrArg Header.proto hh,
      show frameA.srcAddr = _ from congrArg Header.srcAddr hh,
      show frameA.dstAddr = _ from congrArg Header.dstAddr hh,
      show frameA.srcPort = _ from congrArg Header.srcPort hh,
      show frameA.dstPort = _ from congrArg Header.dstPort hh]
    rfl

theorem complete_keyFrameA : (keyFrame flowA).Complete where
  ipv4 := (parse_eq_some.1 (parse_webFlow (netAddr 10 0 0 1) (netAddr 8 8 8 8))).1
  versionIhl := by decide
  unfragmented := by decide
  proto := by decide
  l4Header := by decide
  frame := by decide

theorem complete_frameA : frameA.Complete where
  ipv4 := (parse_eq_some.1 parse_frameA).1
  versionIhl := by decide
  unfragmented := by decide
  proto := by decide
  l4Header := by decide
  frame := by decide

/-- The fields of `keyFrame flowA` are zero, so its checksums have been filled in right. -/
theorem checksumsOk_frameA : frameA.ChecksumsOk := by
  have hblank : Blank (keyFrame flowA).hdrChecksum ∧ Blank (keyFrame flowA).l4Cksum :=
    ⟨.inl (by decide), .inl (by decide)⟩
  exact (fillChecksums_of_complete 1000000000 complete_keyFrameA fun _ _ => rfl).2 hblank

theorem natProcessPacket_flowA (hk : parse m = some flowA) :
    natProcessPacket E 0 (success 0) (natInit mainPublicIp) m =
      some ⟨0, rewriteOut E m (freshEntry (natInit mainPublicIp) flowA),
        created E 0 (success 0) (natInit mainPublicIp) flowA 0⟩ :=
  natProcessPacket_opened hk (by decide) rfl rfl

theorem stale_checksums :
    ¬ ∀ (evs : List Event) (s : NatState) (m : Mbuf) (now : ℕ) (o : Outcome) (r : Result),
      Run (Step ghz) (natInit mainPublicIp) evs s → m.Complete → m.ChecksumsOk →
        natProcessPacket ghz now o s m = some r → r.ret = 0 → r.mbuf.ChecksumsOk := by
  intro h
  have hok := h [] _ frameA 0 (success 0) _ .refl complete_frameA checksumsOk_frameA
    (natProcessPacket_flowA parse_frameA) rfl
  rw [show Result.mbuf _ = _ from rfl, rewriteOut_eq] at hok
  have hblank := ((fillChecksums_of_complete 1000000000 complete_frameA
    (sameFields_out frameA _ _)).1 hok).1
  rcases hblank with hblank | hblank
  · exact absurd hblank (by decide)
  · exact absurd hblank (by decide)

theorem emitted_checksums_flowA :
    (rewriteOut ghz (keyFrame flowA) (freshEntry (natInit mainPublicIp) flowA)).ChecksumsOk := by
  have hr := @natProcessPacket_flowA ghz _ (parse_webFlow (netAddr 10 0 0 1) (netAddr 8 8 8 8))
  exact (emitted_checksums .refl complete_keyFrameA hr rfl).2
    ⟨.inl (by decide), .inl (by decide)⟩

end DpdkBeginners.Napt
