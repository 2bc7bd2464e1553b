import DpdkBeginners.Vxlan.Defs

/-!
# Encapsulating and decapsulating

`vxlan_encap` writes its headers below the data, so the bytes of the frame stay where they are, and it
writes what `vxlan_decap` looks for, so the latter takes the headers away again.  What `vxlan_decap`
does depends on the frame alone, not on the mbuf that carries it; so the two ends of a tunnel undo each
other, at any depth.
-/

namespace DpdkBeginners.Vxlan

open DpdkBeginners.Rte
open Function (update update_self update_of_ne)

variable {E : Env} {m m' m₁ m₂ : Pktmbuf} {b : Bytes}

/-! ### The headers -/

theorem writeEther_apply {eth i : ℕ} (h : i < eth ∨ eth + 14 ≤ i) : writeEther b eth i = b i := by
  unfold writeEther
  rw [store16_apply _ (by omega), storeBytes_apply (by simp; omega), storeBytes_apply (by simp; omega)]

theorem writeIpv4_apply {ip i : ℕ} (totalLength : U16) (h : i < ip ∨ ip + 20 ≤ i) :
    writeIpv4 b E ip totalLength i = b i := by
  unfold writeIpv4
  rw [store16_apply _ (by omega), store32_apply _ (by omega), store32_apply _ (by omega),
    update_of_ne (by omega), update_of_ne (by omega), store16_apply _ (by omega),
    store16_apply _ (by omega), store16_apply _ (by omega), update_of_ne (by omega),
    update_of_ne (by omega)]

theorem writeUdp_apply {udp i : ℕ} (dgramLen : U16) (h : i < udp ∨ udp + 8 ≤ i) :
    writeUdp b udp dgramLen i = b i := by
  unfold writeUdp
  rw [store16_apply _ (by omega), store16_apply _ (by omega), store16_apply _ (by omega),
    store16_apply _ (by omega)]

theorem writeVxlan_apply {vxlan i : ℕ} (h : i < vxlan ∨ vxlan + 8 ≤ i) :
    writeVxlan b vxlan i = b i := by
  unfold writeVxlan
  rw [store32_apply _ (by omega), store32_apply _ (by omega)]

theorem writeEther_etherType (eth : ℕ) :
    load16 (writeEther b eth) (eth + 12) = rteCpuToBe16 rteEtherTypeIpv4 :=
  load16_store16 _

theorem writeIpv4_totalLength (ip : ℕ) (totalLength : U16) :
    load16 (writeIpv4 b E ip totalLength) (ip + 2) = rteCpuToBe16 totalLength := by
  have hsame : load16 (writeIpv4 b E ip totalLength) (ip + 2) =
      load16 (store16 (update (update b ip 0x45) (ip + 1) 0) (ip + 2) (rteCpuToBe16 totalLength))
        (ip + 2) := by
    apply load16_congr
    intro i h₁ h₂
    unfold writeIpv4
    rw [store16_apply _ (by omega), store32_apply _ (by omega), store32_apply _ (by omega),
      update_of_ne (by omega), update_of_ne (by omega), store16_apply _ (by omega),
      store16_apply _ (by omega)]
  rw [hsame, load16_store16]

theorem writeIpv4_nextProtoId (ip : ℕ) (totalLength : U16) :
    writeIpv4 b E ip totalLength (ip + 9) = ipprotoUdp := by
  unfold writeIpv4
  rw [store16_apply _ (by omega), store32_apply _ (by omega), store32_apply _ (by omega),
    update_self]

theorem writeUdp_dstPort (udp : ℕ) (dgramLen : U16) :
    load16 (writeUdp b udp dgramLen) (udp + 2) = rteCpuToBe16 vxlanPort := by
  unfold writeUdp
  rw [load16_store16_of_disjoint _ (by omega), load16_store16_of_disjoint _ (by omega),
    load16_store16]

theorem writeUdp_dgramLen (udp : ℕ) (dgramLen : U16) :
    load16 (writeUdp b udp dgramLen) (udp + 4) = rteCpuToBe16 dgramLen := by
  unfold writeUdp
  rw [load16_store16_of_disjoint _ (by omega), load16_store16]

theorem writeHeaders_apply {eth i : ℕ} (pktLen : U16) (h : i < eth ∨ eth + 50 ≤ i) :
    writeHeaders b E eth pktLen i = b i := by
  unfold writeHeaders
  rw [writeVxlan_apply (by omega), writeUdp_apply _ (by omega), writeIpv4_apply _ (by omega),
    writeEther_apply (by omega)]

theorem writeHeaders_etherType (eth : ℕ) (pktLen : U16) :
    load16 (writeHeaders b E eth pktLen) (eth + 12) = rteCpuToBe16 rteEtherTypeIpv4 := by
  rw [← writeEther_etherType (b := b) eth]
  apply load16_congr
  intro i h₁ h₂
  unfold writeHeaders
  rw [writeVxlan_apply (by omega), writeUdp_apply _ (by omega), writeIpv4_apply _ (by omega)]

theorem writeHeaders_nextProtoId (eth : ℕ) (pktLen : U16) :
    writeHeaders b E eth pktLen (eth + 14 + 9) = ipprotoUdp := by
  unfold writeHeaders
  rw [writeVxlan_apply (by omega), writeUdp_apply _ (by omega), writeIpv4_nextProtoId]

theorem writeHeaders_totalLength (eth : ℕ) (pktLen : U16) :
    load16 (writeHeaders b E eth pktLen) (eth + 14 + 2) = rteCpuToBe16 (20 + 8 + 8 + pktLen) := by
  rw [← writeIpv4_totalLength (E := E) (b := writeEther b eth) (eth + 14)]
  apply load16_congr
  intro i h₁ h₂
  unfold writeHeaders
  rw [writeVxlan_apply (by omega), writeUdp_apply _ (by omega)]

theorem writeHeaders_dstPort (eth : ℕ) (pktLen : U16) :
    load16 (writeHeaders b E eth pktLen) (eth + 14 + 20 + 2) = rteCpuToBe16 vxlanPort := by
  unfold writeHeaders
  rw [← writeUdp_dstPort (eth + 14 + 20) (8 + 8 + pktLen)]
  apply load16_congr
  intro i h₁ h₂
  rw [writeVxlan_apply (by omega)]

theorem writeHeaders_dgramLen (eth : ℕ) (pktLen : U16) :
    load16 (writeHeaders b E eth pktLen) (eth + 14 + 20 + 4) = rteCpuToBe16 (8 + 8 + pktLen) := by
  unfold writeHeaders
  rw [← writeUdp_dgramLen (eth + 14 + 20) (8 + 8 + pktLen)]
  apply load16_congr
  intro i h₁ h₂
  rw [writeVxlan_apply (by omega)]

/-! ### What the two functions achieve -/

/-- What `vxlan_decap` looks for. -/
def IsVxlan (m : Mbuf) : Prop :=
  m.IsIpv4 ∧ m.nextProtoId = ipprotoUdp ∧ m.dstPort = rteCpuToBe16 vxlanPort

/-- `m₁` is `m` behind the headers of a VXLAN packet. -/
structure Encapsulates (m₁ m : Pktmbuf) : Prop where
  dataOff : m₁.dataOff + headersLen = m.dataOff
  dataLen : m₁.dataLen = m.dataLen + headersLen
  inner : ∀ i, m₁.mtod.data (headersLen + i) = m.mtod.data i
  isVxlan : IsVxlan m₁.mtod
  totalLength : load16 m₁.mtod.data 16 = rteCpuToBe16 (20 + 8 + 8 + m.pktLen)
  dgramLen : load16 m₁.mtod.data 38 = rteCpuToBe16 (8 + 8 + m.pktLen)

theorem vxlanEncap_spec (h : vxlanEncap E m = some m₁) : Encapsulates m₁ m := by
  obtain ⟨p, hp, rfl⟩ := Option.map_eq_some_iff.1 h
  obtain ⟨hbuf, hoff, hlen⟩ := Pktmbuf.prepend_spec hp
  refine ⟨hoff, hlen, ?_, ⟨?_, ?_, ?_⟩, ?_, ?_⟩
  · intro i
    show writeHeaders p.buf E p.dataOff m.pktLen (p.dataOff + (headersLen + i)) =
      m.buf (m.dataOff + i)
    rw [← hoff, ← hbuf, ← Nat.add_assoc]
    exact writeHeaders_apply _ (by unfold headersLen; omega)
  · exact writeHeaders_etherType p.dataOff m.pktLen
  · exact writeHeaders_nextProtoId p.dataOff m.pktLen
  · exact writeHeaders_dstPort p.dataOff m.pktLen
  · exact writeHeaders_totalLength p.dataOff m.pktLen
  · exact writeHeaders_dgramLen p.dataOff m.pktLen

theorem vxlanEncap_of_le (E : Env) (h : headersLen ≤ m.dataOff) : ∃ m₁, vxlanEncap E m = some m₁ := by
  obtain ⟨p, hp⟩ := m.prepend_of_le h
  exact ⟨_, by rw [vxlanEncap, hp, Option.map_some]⟩

theorem vxlanDecap_of_isVxlan (h : IsVxlan m.mtod) : vxlanDecap m = (0, m.adj headersLen) := by
  obtain ⟨hether, hproto, hport⟩ := h
  unfold Mbuf.IsIpv4 at hether
  unfold vxlanDecap
  rw [if_neg (not_not.2 hether), if_neg (not_not.2 hproto), if_neg (not_not.2 hport)]

theorem vxlanDecap_snd_of_ne (h : (vxlanDecap m).1 ≠ 0) : (vxlanDecap m).2 = m := by
  unfold vxlanDecap at h ⊢
  split_ifs at h ⊢
  all_goals first | rfl | exact absurd rfl h

theorem forward_eq (E : Env) (m : Pktmbuf) :
    forward E m =
      if (vxlanDecap m).1 = 0 then some (vxlanDecap m).2 else vxlanEncap E (vxlanDecap m).2 := rfl

/-- `vxlan_decap` looks at the frame only, when the frame is as long as the headers. -/
theorem isVxlan_congr (hlen : headersLen ≤ m.dataLen) (h : m'.frame = m.frame) (hm : IsVxlan m.mtod) :
    IsVxlan m'.mtod := by
  obtain ⟨hlen', hdata⟩ := Mbuf.frame_eq_iff.1 h.symm
  unfold headersLen at hlen
  have hbyte : ∀ i < 50, m'.mtod.data i = m.mtod.data i := fun i hi =>
    (hdata i (Nat.lt_of_lt_of_le hi hlen)).symm
  obtain ⟨hether, hproto, hport⟩ := hm
  refine ⟨?_, ?_, ?_⟩
  · exact (load16_congr fun i _ hi => hbyte i (by omega)).trans hether
  · exact (hbyte 23 (by omega)).trans hproto
  · exact (load16_congr fun i _ hi => hbyte i (by omega)).trans hport

theorem Encapsulates.vxlanDecap (h : Encapsulates m₁ m) (hframe : m₂.frame = m₁.frame) :
    ∃ m₃, vxlanDecap m₂ = (0, m₃) ∧ m₃.frame = m.frame := by
  have hlen₁ : headersLen ≤ m₁.dataLen := by
    rw [h.dataLen]
    exact Nat.le_add_left ..
  obtain ⟨hlen, hdata⟩ := Mbuf.frame_eq_iff.1 hframe
  have hlen₂ : m₂.dataLen = m.dataLen + headersLen := hlen.trans h.dataLen
  obtain ⟨hbuf₃, hoff₃, hlen₃⟩ := m₂.adj_spec (hlen₂ ▸ Nat.le_add_left ..)
  refine ⟨_, vxlanDecap_of_isVxlan (isVxlan_congr hlen₁ hframe h.isVxlan), ?_⟩
  refine Mbuf.frame_eq_iff.2 ⟨?_, ?_⟩
  · show (m₂.adj headersLen).dataLen = m.dataLen
    rw [hlen₃, hlen₂, Nat.add_sub_cancel]
  · intro i hi
    have hi₂ : headersLen + i < m₂.dataLen := by
      have hi' : i < (m₂.adj headersLen).dataLen := hi
      omega
    calc (m₂.adj headersLen).mtod.data i
        = m₂.buf (m₂.dataOff + headersLen + i) := by rw [Pktmbuf.mtod, hbuf₃, hoff₃]
      _ = m₂.mtod.data (headersLen + i) := by rw [Nat.add_assoc]; rfl
      _ = m₁.mtod.data (headersLen + i) := hdata _ hi₂
      _ = m.mtod.data i := h.inner i

/-! ### Nested tunnels -/

/-- `n` applications of `vxlan_encap`. -/
def encapTimes (E : Env) (m : Pktmbuf) : ℕ → Option Pktmbuf
  | 0 => some m
  | n + 1 => (encapTimes E m n).bind (vxlanEncap E)

/-- `n` applications of `vxlan_decap` that all return 0. -/
def decapTimes (m : Pktmbuf) : ℕ → Option Pktmbuf
  | 0 => some m
  | n + 1 => if (vxlanDecap m).1 = 0 then decapTimes (vxlanDecap m).2 n else none

theorem encapTimes_of_le (E : Env) {n : ℕ} (h : n * headersLen ≤ m.dataOff) :
    ∃ m₁, encapTimes E m n = some m₁ ∧ m₁.dataOff + n * headersLen = m.dataOff := by
  induction n with
  | zero => exact ⟨m, rfl, by simp⟩
  | succ n ih =>
    rw [Nat.add_mul, Nat.one_mul] at h
    obtain ⟨m₁, h₁, hoff⟩ := ih (by omega)
    obtain ⟨m₂, h₂⟩ := vxlanEncap_of_le E (m := m₁) (by omega)
    have hoff₂ := (vxlanEncap_spec h₂).dataOff
    refine ⟨m₂, by rw [encapTimes, h₁, Option.bind_some, h₂], ?_⟩
    rw [Nat.add_mul, Nat.one_mul]
    omega

/-- By induction on the depth: the outermost headers come off first. -/
theorem decapTimes_encapTimes {n : ℕ} (h : encapTimes E m n = some m₁) (hframe : m₂.frame = m₁.frame) :
    ∃ m₃, decapTimes m₂ n = some m₃ ∧ m₃.frame = m.frame := by
  induction n generalizing m₁ m₂ with
  | zero =>
    obtain rfl := Option.some_inj.1 h
    exact ⟨m₂, rfl, hframe⟩
  | succ n ih =>
    obtain ⟨p, hp, hencap⟩ := Option.bind_eq_some_iff.1 h
    obtain ⟨q, hdecap, hq⟩ := (vxlanEncap_spec hencap).vxlanDecap hframe
    obtain ⟨m₃, h₃, hframe₃⟩ := ih hp hq
    exact ⟨m₃, by rw [decapTimes, hdecap, if_pos rfl, h₃], hframe₃⟩

/-- The length fields that `vxlan_encap` writes are the numbers of bytes to the end of the frame. -/
theorem Encapsulates.lengths (h : Encapsulates m₁ m) :
    (rteBeToCpu16 (load16 m₁.mtod.data 16)).toNat = m₁.dataLen - 14 ∧
      (rteBeToCpu16 (load16 m₁.mtod.data 38)).toNat = m₁.dataLen - 34 := by
  have hfits := m.fits
  have hlen := h.dataLen
  have hpkt := m.pktLen_toNat
  unfold rteMbufDefaultBufSize at hfits
  unfold headersLen at hlen
  rw [h.totalLength, h.dgramLen, rteBeToCpu16, rteCpuToBe16, bswap16_bswap16, bswap16_bswap16]
  constructor
  · have hsum : (20 + 8 + 8 + m.pktLen : U16).toNat = (36 + m.dataLen) % 2 ^ 16 := by
      rw [BitVec.toNat_add, hpkt]
      rfl
    omega
  · have hsum : (8 + 8 + m.pktLen : U16).toNat = (16 + m.dataLen) % 2 ^ 16 := by
      rw [BitVec.toNat_add, hpkt]
      rfl
    omega

/-- **The round trip.**  When the headroom is long enough for `n` tunnels, `vxlan_encap` succeeds `n`
times, and `vxlan_decap`, applied `n` times to any mbuf that carries the outcome, succeeds and restores
the frame; each `vxlan_encap` writes the true lengths; and a frame that `vxlan_decap` does not accept
comes out of two forwarders as it went into the first one. -/
theorem round_trip (E : Env) (m : Pktmbuf) :
    (∀ n, n * headersLen ≤ m.dataOff → ∃ m₁, encapTimes E m n = some m₁ ∧
      ∀ m₂ : Pktmbuf, m₂.frame = m₁.frame → ∃ m₃, decapTimes m₂ n = some m₃ ∧ m₃.frame = m.frame) ∧
    (∀ m₁, vxlanEncap E m = some m₁ →
      (rteBeToCpu16 (load16 m₁.mtod.data 16)).toNat = m₁.dataLen - 14 ∧
        (rteBeToCpu16 (load16 m₁.mtod.data 38)).toNat = m₁.dataLen - 34) ∧
    (headersLen ≤ m.dataOff → (vxlanDecap m).1 ≠ 0 → ∃ m₁, forward E m = some m₁ ∧
      ∀ m₂ : Pktmbuf, m₂.frame = m₁.frame → ∃ m₃, forward E m₂ = some m₃ ∧ m₃.frame = m.frame) := by
  refine ⟨?_, fun m₁ h₁ => (vxlanEncap_spec h₁).lengths, ?_⟩
  · intro n hn
    obtain ⟨m₁, h₁, -⟩ := encapTimes_of_le E hn
    exact ⟨m₁, h₁, fun m₂ h₂ => decapTimes_encapTimes h₁ h₂⟩
  · intro hroom hret
    obtain ⟨m₁, h₁⟩ := vxlanEncap_of_le E hroom
    refine ⟨m₁, ?_, ?_⟩
    · rw [forward_eq, if_neg hret, vxlanDecap_snd_of_ne hret, h₁]
    · intro m₂ h₂
      obtain ⟨m₃, h₃, hframe⟩ := (vxlanEncap_spec h₁).vxlanDecap h₂
      exact ⟨m₃, by rw [forward_eq, h₃, if_pos rfl], hframe⟩

/-- A TCP packet without payload as it is received, behind the default headroom. -/
def received : Pktmbuf where
  buf i := (l4Base ipprotoTcp).data (i - 128)
  dataOff := 128
  dataLen := 54
  fits := by decide

theorem round_trip_received :
    (∃ m₁, encapTimes ghz received 2 = some m₁ ∧
      ∃ m₃, decapTimes m₁ 2 = some m₃ ∧ m₃.frame = received.frame) ∧
    ∃ m₁, forward ghz received = some m₁ ∧ ∃ m₃, forward ghz m₁ = some m₃ ∧
      m₃.frame = received.frame := by
  obtain ⟨htimes, -, hforward⟩ := round_trip ghz received
  constructor
  · obtain ⟨m₁, h₁, hback⟩ := htimes 2 (by decide)
    exact ⟨m₁, h₁, hback m₁ rfl⟩
  · obtain ⟨m₁, h₁, hback⟩ := hforward (by decide) (by decide)
    exact ⟨m₁, h₁, hback m₁ rfl⟩

end DpdkBeginners.Vxlan
