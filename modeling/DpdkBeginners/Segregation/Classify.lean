import DpdkBeginners.Rte.Cksum
import DpdkBeginners.Segregation.Defs

/-!
# What the classifier decides

`IsControl` says what control traffic is, in terms of the headers of a frame: the EtherType behind at most one
VLAN tag, a complete IPv4 header, and behind it a complete TCP or UDP header, which only the first fragment
of a packet has.  The classifier finds all of it, but it does not look whether the IPv4 header is complete
and valid, nor at the fragment offset; it is exact on the frames where that makes no difference
(`classify_exact_iff`).

The offsets of everything behind the MAC addresses are relative to the tag, so inserting a tag changes nothing
(`classify_insertVlan`).
-/

namespace DpdkBeginners.Segregation

open DpdkBeginners.Rte

variable {m m' : Mbuf} {ip : ℕ} {ethType tci : U16}

/-! ### Control traffic -/

/-- The frame is IPv4 with at most one VLAN tag, and its IPv4 header starts at `ip`. -/
inductive CarriesIpv4 (m : Mbuf) : ℕ → Prop
  | untagged : 14 ≤ m.dataLen → rteBeToCpu16 m.etherType = rteEtherTypeIpv4 → CarriesIpv4 m 14
  | tagged : 18 ≤ m.dataLen → rteBeToCpu16 m.etherType = rteEtherTypeVlan →
      rteBeToCpu16 (load16 m.data 16) = rteEtherTypeIpv4 → CarriesIpv4 m 18

/-- The IPv4 header is complete and has at least 20 bytes. -/
def CompleteIpv4 (m : Mbuf) (ip : ℕ) : Prop :=
  20 ≤ hdrLen m.data ip ∧ ip + hdrLen m.data ip ≤ m.dataLen

/-- ICMP or OSPF. -/
def ControlProto (m : Mbuf) (ip : ℕ) : Prop := m.data (ip + 9) = ipprotoIcmp ∨ m.data (ip + 9) = 89

/-- DNS, DHCP, NTP and SNMP. -/
def controlUdpPorts : List U16 := [53, 67, 68, 123, 161]

/-- SSH, DNS, BGP and LDAP. -/
def controlTcpPorts : List U16 := [22, 53, 179, 389]

/-- Where the IPv4 header ends there is a complete UDP or TCP header with a control port. -/
def ControlPort (m : Mbuf) (ip : ℕ) : Prop :=
  let l4 := ip + hdrLen m.data ip
  let port := rteBeToCpu16 (load16 m.data (l4 + 2))
  m.data (ip + 9) = ipprotoUdp ∧ l4 + 8 ≤ m.dataLen ∧ port ∈ controlUdpPorts ∨
    m.data (ip + 9) = ipprotoTcp ∧ l4 + 20 ≤ m.dataLen ∧ port ∈ controlTcpPorts

/-- **Control traffic.**  Neither `total_length` nor the version in the first byte is looked at, since the classifier
looks at neither; `Forwarding.WellFormed` asks for both. -/
def IsControl (m : Mbuf) : Prop :=
  ∃ ip, CarriesIpv4 m ip ∧ CompleteIpv4 m ip ∧
    (ControlProto m ip ∨ fragmentOffset m.data ip = 0 ∧ ControlPort m ip)

/-! ### What the classifier looks at -/

theorem isControlUdpPort_iff {port : U16} :
    isControlUdpPort port = true ↔ rteBeToCpu16 port ∈ controlUdpPorts := by
  simp [isControlUdpPort, controlUdpPorts]

theorem isControlTcpPort_iff {port : U16} :
    isControlTcpPort port = true ↔ rteBeToCpu16 port ∈ controlTcpPorts := by
  simp [isControlTcpPort, controlTcpPorts]

theorem classifyIpv4_iff :
    classifyIpv4 m ethType ip = true ↔
      ethType = rteEtherTypeIpv4 ∧ ip + 20 ≤ m.dataLen ∧ (ControlProto m ip ∨ ControlPort m ip) := by
  have hguard : ∀ (n : ℕ) (c : Bool),
      (if m.dataLen < n then false else c) = true ↔ n ≤ m.dataLen ∧ c = true := by
    intro n c
    split_ifs with hn
    · simp [Nat.not_le.2 hn]
    · simp [Nat.not_lt.1 hn]
  unfold classifyIpv4 ControlProto ControlPort
  simp only [ihl_eq, ← isControlUdpPort_iff, ← isControlTcpPort_iff]
  by_cases hether : ethType = rteEtherTypeIpv4
  · rw [if_neg (not_not.2 hether), hguard, and_iff_right hether]
    refine and_congr_right fun _ => ?_
    by_cases hicmp : m.data (ip + 9) = ipprotoIcmp
    · simp [hicmp]
    by_cases hospf : m.data (ip + 9) = 89
    · simp [hospf]
    rw [if_neg hicmp, if_neg hospf]
    by_cases hudp : m.data (ip + 9) = ipprotoUdp
    · have htcp : m.data (ip + 9) ≠ ipprotoTcp := ne_tcp_of_udp hudp
      rw [if_pos hudp, hguard]
      simp only [hicmp, hospf, htcp, eq_true hudp, false_or, or_false, true_and, false_and]
    · rw [if_neg hudp]
      by_cases htcp : m.data (ip + 9) = ipprotoTcp
      · rw [if_pos htcp, hguard]
        simp only [hicmp, hospf, hudp, eq_true htcp, false_or, true_and, false_and]
      · rw [if_neg htcp]
        simp only [hicmp, hospf, hudp, htcp, false_and, or_self, Bool.false_eq_true]
  · simp [hether]

/-- What the classifier takes for control traffic. -/
theorem classifyPacket_iff :
    classifyPacket m = true ↔
      ∃ ip, CarriesIpv4 m ip ∧ ip + 20 ≤ m.dataLen ∧ (ControlProto m ip ∨ ControlPort m ip) := by
  unfold classifyPacket
  constructor
  · intro h
    dsimp only at h
    split_ifs at h with h14 hvlan h18
    · obtain ⟨hether, hip⟩ := classifyIpv4_iff.1 h
      exact ⟨18, .tagged (Nat.not_lt.1 h18) hvlan hether, hip⟩
    · obtain ⟨hether, hip⟩ := classifyIpv4_iff.1 h
      exact ⟨14, .untagged (Nat.not_lt.1 h14) hether, hip⟩
  · rintro ⟨ip, hcarries, hip⟩
    cases hcarries with
    | untagged h14 hether =>
      have hvlan : rteBeToCpu16 m.etherType ≠ rteEtherTypeVlan := by
        rw [hether]
        decide
      rw [if_neg (Nat.not_lt.2 h14), if_neg hvlan]
      exact classifyIpv4_iff.2 ⟨hether, hip⟩
    | tagged h18 hvlan hether =>
      rw [if_neg (by omega), if_pos hvlan, if_neg (Nat.not_lt.2 h18)]
      exact classifyIpv4_iff.2 ⟨hether, hip⟩

/-! ### Exactness -/

theorem CarriesIpv4.unique {ip' : ℕ} (h : CarriesIpv4 m ip) (h' : CarriesIpv4 m ip') : ip = ip' := by
  have hne : rteEtherTypeIpv4 ≠ rteEtherTypeVlan := by decide
  cases h with
  | untagged _ h =>
    cases h' with
    | untagged => rfl
    | tagged _ h' _ => exact absurd (h.symm.trans h') hne
  | tagged _ h _ =>
    cases h' with
    | untagged _ h' => exact absurd (h'.symm.trans h) hne
    | tagged => rfl

/-- A frame on which it makes no difference what the classifier does not look at: an ICMP or OSPF packet has a
complete and valid IPv4 header, and where there is a control port, the IPv4 header is valid and this is the
first fragment. -/
def Unambiguous (m : Mbuf) : Prop :=
  ∀ ip, CarriesIpv4 m ip → ip + 20 ≤ m.dataLen →
    (ControlProto m ip → CompleteIpv4 m ip) ∧
    (ControlPort m ip → 20 ≤ hdrLen m.data ip ∧ fragmentOffset m.data ip = 0)

theorem ControlPort.le (h : ControlPort m ip) : ip + hdrLen m.data ip ≤ m.dataLen := by
  rcases h with ⟨-, hlen, -⟩ | ⟨-, hlen, -⟩ <;> omega

theorem IsControl.classifyPacket (h : IsControl m) : classifyPacket m = true := by
  obtain ⟨ip, hcarries, ⟨hihl, hcomplete⟩, hcontrol⟩ := h
  refine classifyPacket_iff.2 ⟨ip, hcarries, by omega, ?_⟩
  rcases hcontrol with hproto | ⟨-, hport⟩
  · exact .inl hproto
  · exact .inr hport

theorem ControlProto.not_controlPort (h : ControlProto m ip) : ¬ ControlPort m ip := by
  rintro (⟨hudp, -⟩ | ⟨htcp, -⟩)
  · rcases h with h | h <;> rw [h] at hudp <;> exact absurd hudp (by decide)
  · rcases h with h | h <;> rw [h] at htcp <;> exact absurd htcp (by decide)

/-- **The classification is exact** on the unambiguous frames and no others. -/
theorem classify_exact_iff (m : Mbuf) : (classifyPacket m = true ↔ IsControl m) ↔ Unambiguous m := by
  constructor
  · intro hexact ip hcarries hlen
    have hspec : ControlProto m ip ∨ ControlPort m ip → CompleteIpv4 m ip ∧
        (ControlProto m ip ∨ fragmentOffset m.data ip = 0 ∧ ControlPort m ip) := by
      intro hseems
      obtain ⟨ip', hcarries', hip'⟩ := hexact.1 (classifyPacket_iff.2 ⟨ip, hcarries, hlen, hseems⟩)
      obtain rfl := hcarries.unique hcarries'
      exact hip'
    refine ⟨fun hproto => (hspec (.inl hproto)).1, fun hport => ?_⟩
    obtain ⟨hcomplete, hproto | ⟨hfrag, -⟩⟩ := hspec (.inr hport)
    · exact absurd hport hproto.not_controlPort
    · exact ⟨hcomplete.1, hfrag⟩
  · intro hm
    refine ⟨fun h => ?_, IsControl.classifyPacket⟩
    obtain ⟨ip, hcarries, hlen, hseems⟩ := classifyPacket_iff.1 h
    obtain ⟨hicmp, hl4⟩ := hm ip hcarries hlen
    rcases hseems with hproto | hport
    · exact ⟨ip, hcarries, hicmp hproto, .inl hproto⟩
    · obtain ⟨hihl, hfrag⟩ := hl4 hport
      exact ⟨ip, hcarries, ⟨hihl, hport.le⟩, .inr ⟨hfrag, hport⟩⟩

/-- A later fragment, whose payload looks like the UDP header of a DNS query. -/
def laterFragment : Mbuf :=
  let m := l4Frame ipprotoUdp (netAddr 10 0 0 1) (netAddr 8 8 8 8) (rteCpuToBe16 1000) (rteCpuToBe16 53)
  { m with data := store16 m.data 20 (rteCpuToBe16 1) }

/-- **Payload is taken for a header.** -/
theorem laterFragment_classified : classifyPacket laterFragment = true ∧ ¬ IsControl laterFragment := by
  refine ⟨by decide, ?_⟩
  rintro ⟨ip, hcarries, -, hcontrol⟩
  obtain rfl := hcarries.unique (.untagged (by decide) (by decide))
  rcases hcontrol with hproto | ⟨hfrag, -⟩
  · exact absurd hproto (by unfold ControlProto; decide)
  · exact absurd hfrag (by decide)

/-! ### VLAN tags -/

/-- The frame with a tag behind the MAC addresses. -/
def insertVlan (m : Mbuf) (tci : U16) : Mbuf where
  data :=
    let d : Bytes := fun i => if i < 12 then m.data i else m.data (i - 4)
    store16 (store16 d 12 (rteCpuToBe16 rteEtherTypeVlan)) 14 (rteCpuToBe16 tci)
  dataLen := m.dataLen + 4

theorem shift_insertVlan (m : Mbuf) (tci : U16) (k : ℕ) :
    shift (16 + k) (insertVlan m tci).data = shift (12 + k) m.data := by
  funext i
  show store16 (store16 _ 12 _) 14 _ (16 + k + i) = m.data (12 + k + i)
  rw [store16_apply _ (by omega), store16_apply _ (by omega), if_neg (by omega)]
  congr 1
  omega

theorem classifyIpv4_shift {ip' : ℕ} (hdata : shift ip' m'.data = shift ip m.data)
    (hlen : m'.dataLen + ip = m.dataLen + ip') : classifyIpv4 m' ethType ip' = classifyIpv4 m ethType ip := by
  have hbyte : ∀ k, m'.data (ip' + k) = m.data (ip + k) := fun k => congrFun hdata k
  have hword : ∀ k, load16 m'.data (ip' + k) = load16 m.data (ip + k) := by
    intro k
    rw [← load16_shift, hdata, load16_shift]
  have hguard : ∀ k, m'.dataLen < ip' + k ↔ m.dataLen < ip + k := by
    intro k
    omega
  have hihl : m'.data ip' = m.data ip := hbyte 0
  simp only [classifyIpv4, Nat.add_assoc, hguard, hbyte, hword, hihl]

/-- **A tag makes no difference** to the classifier. -/
theorem classify_insertVlan (hlen : 14 ≤ m.dataLen)
    (hether : rteBeToCpu16 m.etherType ≠ rteEtherTypeVlan) (tci : U16) :
    classifyPacket (insertVlan m tci) = classifyPacket m := by
  have hvlan : rteBeToCpu16 (insertVlan m tci).etherType = rteEtherTypeVlan := by
    have hload : (insertVlan m tci).etherType = rteCpuToBe16 rteEtherTypeVlan := by
      show load16 (store16 (store16 _ 12 _) 14 _) 12 = _
      rw [load16_store16_of_disjoint _ (by omega), load16_store16]
    rw [hload]
    exact bswap16_bswap16 _
  have hinner : load16 (insertVlan m tci).data 16 = m.etherType := by
    have h : load16 (shift 16 (insertVlan m tci).data) 0 = load16 (shift 12 m.data) 0 := by
      rw [shift_insertVlan m tci 0]
    rwa [load16_shift, load16_shift] at h
  have hlen' : (insertVlan m tci).dataLen = m.dataLen + 4 := rfl
  have hrest := @classifyIpv4_shift m (insertVlan m tci) 14 (rteBeToCpu16 m.etherType) 18
    (shift_insertVlan m tci 2) (by omega)
  unfold classifyPacket
  rw [if_neg (by omega), if_neg (Nat.not_lt.2 hlen)]
  simp only [hvlan, hinner, if_true, if_neg hether]
  rw [if_neg (by omega), ← hrest]

theorem classify_insertVlan_ssh :
    let m := l4Frame ipprotoTcp (netAddr 10 0 0 1) (netAddr 10 0 0 2) (rteCpuToBe16 1000) (rteCpuToBe16 22)
    classifyPacket (insertVlan m 100) = classifyPacket m :=
  classify_insertVlan (by decide) (by decide) 100

end DpdkBeginners.Segregation
