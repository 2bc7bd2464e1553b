import DpdkBeginners.Rte.Cksum
import DpdkBeginners.Vxlan.RoundTrip

/-!
# Which frames are decapsulated

`vxlan_decap` looks for the fields of a VXLAN packet at fixed offsets, whatever the lengths of the frame, of its IPv4
header, of the IP packet and of the UDP datagram are, and it does not ask whether `rte_pktmbuf_adj` has taken the
headers away.  So it is right about a frame if and only if the frame is a VXLAN packet with an IPv4 header of 20 bytes,
or is none and does not look like one at these offsets (`decap_exact_iff`).
-/

namespace DpdkBeginners.Vxlan

open DpdkBeginners.Rte

variable {m : Pktmbuf}

/-! ### VXLAN packets -/

/-- Where the inner frame starts: behind the Ethernet header, the IPv4 header, as long as it says, the UDP header
and the VXLAN header. -/
def innerOff (m : Mbuf) : ℕ := ipOff + hdrLen m.data ipOff + 8 + 8

/-- The version of the IPv4 header. -/
def ipVersion (m : Mbuf) : BitVec 4 := (m.data ipOff).extractLsb' 4 4

/-- `dgram_len` of the UDP header behind the IPv4 header, in host order. -/
def dgramLen (m : Mbuf) : ℕ := (rteBeToCpu16 (load16 m.data (ipOff + hdrLen m.data ipOff + 4))).toNat

/-- The frame contains complete outer headers: they lie in the frame, those of UDP and VXLAN in the IP packet, and the
one of VXLAN in the UDP datagram.  What is behind the IP packet or the datagram is padding. -/
structure CarriesVxlan (m : Mbuf) : Prop where
  ipv4 : m.IsIpv4
  version : ipVersion m = 4
  ipHeader : 20 ≤ hdrLen m.data ipOff
  udp : m.nextProtoId = ipprotoUdp
  firstFragment : fragmentOffset m.data ipOff = 0
  dstPort : load16 m.data (ipOff + hdrLen m.data ipOff + 2) = rteCpuToBe16 vxlanPort
  complete : innerOff m ≤ m.dataLen
  packet : hdrLen m.data ipOff + 8 + 8 ≤ totalLength m.data ipOff
  datagram : 8 + 8 ≤ dgramLen m

/-- `vxlan_decap` is right about the frame: it takes away the headers of a VXLAN packet and rejects anything
else. -/
structure DecapExact (m : Pktmbuf) : Prop where
  accepts : CarriesVxlan m.mtod →
    (vxlanDecap m).1 = 0 ∧ (vxlanDecap m).2.frame = m.frame.drop (innerOff m.mtod)
  rejects : ¬ CarriesVxlan m.mtod → (vxlanDecap m).1 = -1 ∧ (vxlanDecap m).2.frame = m.frame

/-! ### What `vxlan_decap` does -/

theorem vxlanDecap_of_not_isVxlan (h : ¬ IsVxlan m.mtod) : vxlanDecap m = (-1, m) := by
  unfold vxlanDecap
  by_cases hether : m.mtod.etherType = rteCpuToBe16 rteEtherTypeIpv4
  · rw [if_neg (not_not.2 hether)]
    by_cases hproto : m.mtod.nextProtoId = ipprotoUdp
    · rw [if_neg (not_not.2 hproto), if_pos fun hport => h ⟨hether, hproto, hport⟩]
    · rw [if_pos hproto]
  · rw [if_pos hether]

/-- A VXLAN packet with an IPv4 header of 20 bytes has its fields where they are looked for. -/
theorem CarriesVxlan.isVxlan {m : Mbuf} (h : CarriesVxlan m) (hihl : hdrLen m.data ipOff = 20) :
    IsVxlan m := by
  have hport := h.dstPort
  rw [hihl] at hport
  exact ⟨h.ipv4, h.udp, hport⟩

/-- The lengths and the version that `vxlan_decap` does not ask for, where the IPv4 header has 20 bytes. -/
structure PlainHeaders (m : Mbuf) : Prop where
  frame : headersLen ≤ m.dataLen
  versionIhl : m.data ipOff = 0x45
  firstFragment : fragmentOffset m.data ipOff = 0
  packet : 20 + 8 + 8 ≤ totalLength m.data ipOff
  datagram : 8 + 8 ≤ (rteBeToCpu16 (load16 m.data (l4Off + 4))).toNat

theorem versionIhl_iff {m : Mbuf} : m.data ipOff = 0x45 ↔ ipVersion m = 4 ∧ hdrLen m.data ipOff = 20 := by
  unfold ipVersion hdrLen
  constructor
  · intro h
    rw [h]
    exact ⟨by decide, by decide⟩
  · rintro ⟨hversion, hihl⟩
    have hhigh := congrArg BitVec.toNat hversion
    rw [BitVec.extractLsb'_toNat, Nat.shiftRight_eq_div_pow] at hhigh
    change (m.data ipOff).toNat / 16 % 16 = 4 at hhigh
    apply BitVec.eq_of_toNat_eq
    change (m.data ipOff).toNat = 69
    have hlt := (m.data ipOff).isLt
    omega

theorem PlainHeaders.hihl {m : Mbuf} (h : PlainHeaders m) : hdrLen m.data ipOff = 20 :=
  (versionIhl_iff.1 h.versionIhl).2

/-- What `vxlan_decap` takes for a VXLAN packet is one exactly with plain headers. -/
theorem plainHeaders_iff {m : Mbuf} (h : IsVxlan m) :
    PlainHeaders m ↔ CarriesVxlan m ∧ hdrLen m.data ipOff = 20 := by
  constructor
  · intro hplain
    obtain ⟨hversion, hihl⟩ := versionIhl_iff.1 hplain.versionIhl
    refine ⟨⟨h.1, hversion, Nat.le_of_eq hihl.symm, h.2.1, hplain.firstFragment, ?_, ?_, ?_, ?_⟩, hihl⟩
    · rw [hihl]
      exact h.2.2
    · rw [innerOff, hihl]
      exact hplain.frame
    · rw [hihl]
      exact hplain.packet
    · rw [dgramLen, hihl]
      exact hplain.datagram
  · rintro ⟨hc, hihl⟩
    have hcomplete := hc.complete
    have hpacket := hc.packet
    have hdatagram := hc.datagram
    rw [innerOff, hihl] at hcomplete
    rw [hihl] at hpacket
    rw [dgramLen, hihl] at hdatagram
    exact ⟨hcomplete, versionIhl_iff.2 ⟨hc.version, hihl⟩, hc.firstFragment, hpacket, hdatagram⟩

/-! ### Exactness -/

/-- **Decapsulation is exact** if and only if a frame that looks like a VXLAN packet is as long as the headers, has an
IPv4 header of version 4 and 20 bytes, is not a later fragment, and holds the headers in its IP packet and its UDP
datagram; and a VXLAN packet has an IPv4 header of 20 bytes. -/
theorem decap_exact_iff (m : Pktmbuf) :
    DecapExact m ↔ (IsVxlan m.mtod → PlainHeaders m.mtod) ∧ (CarriesVxlan m.mtod → hdrLen m.mtod.data ipOff = 20) := by
  constructor
  · intro h
    have hkey : IsVxlan m.mtod → CarriesVxlan m.mtod ∧ hdrLen m.mtod.data ipOff = 20 := by
      intro hlooks
      have hdecap := vxlanDecap_of_isVxlan hlooks
      by_cases hc : CarriesVxlan m.mtod
      · -- the frame is shorter by 50 bytes, and by the length of its headers
        obtain ⟨-, hframe⟩ := h.accepts hc
        have hcomplete : 14 + hdrLen m.mtod.data ipOff + 8 + 8 ≤ m.dataLen := hc.complete
        have hheader := hc.ipHeader
        have hle : headersLen ≤ m.dataLen := by
          unfold headersLen
          omega
        rw [hdecap, m.frame_adj hle] at hframe
        have hlen := congrArg List.length hframe
        rw [List.length_drop, List.length_drop, Pktmbuf.length_frame] at hlen
        refine ⟨hc, ?_⟩
        change m.dataLen - 50 = m.dataLen - (14 + hdrLen m.mtod.data ipOff + 8 + 8) at hlen
        omega
      · have hret := (h.rejects hc).1
        rw [hdecap] at hret
        exact absurd hret (show (0 : Int) ≠ -1 by decide)
    refine ⟨fun hlooks => (plainHeaders_iff hlooks).2 (hkey hlooks), fun hc => ?_⟩
    by_cases hlooks : IsVxlan m.mtod
    · exact (hkey hlooks).2
    · have hret := (h.accepts hc).1
      rw [vxlanDecap_of_not_isVxlan hlooks] at hret
      exact absurd hret (show (-1 : Int) ≠ 0 by decide)
  · rintro ⟨hlooks, hcarries⟩
    by_cases hvx : IsVxlan m.mtod
    · obtain ⟨hc, hihl⟩ := (plainHeaders_iff hvx).1 (hlooks hvx)
      refine ⟨fun _ => ?_, fun hn => absurd hc hn⟩
      rw [vxlanDecap_of_isVxlan hvx, innerOff, hihl]
      exact ⟨rfl, m.frame_adj (hlooks hvx).frame⟩
    · refine ⟨fun hc => absurd (hc.isVxlan (hcarries hc)) hvx, fun _ => ?_⟩
      rw [vxlanDecap_of_not_isVxlan hvx]
      exact ⟨rfl, rfl⟩

/-- A UDP packet to port 4789 without payload. -/
def shortVxlan : Pktmbuf where
  buf i := (l4Frame ipprotoUdp (netAddr 10 0 0 1) (netAddr 10 0 0 2) (rteCpuToBe16 12345)
    (rteCpuToBe16 vxlanPort)).data (i - 128)
  dataOff := 128
  dataLen := 42
  fits := by decide

/-- **A frame that is too short is accepted.** -/
theorem short_accepted : (vxlanDecap shortVxlan).1 = 0 ∧ ¬ DecapExact shortVxlan := by
  have haccepted : (vxlanDecap shortVxlan).1 = 0 := by decide
  refine ⟨haccepted, fun h => ?_⟩
  have hrejected : (vxlanDecap shortVxlan).1 = -1 := by
    refine (h.rejects fun hc => ?_).1
    have hcomplete : 14 + hdrLen shortVxlan.mtod.data ipOff + 8 + 8 ≤ 42 := hc.complete
    have hheader := hc.ipHeader
    omega
  rw [haccepted] at hrejected
  exact absurd hrejected (by decide)

end DpdkBeginners.Vxlan
