import DpdkBeginners.Rte.Cksum
import DpdkBeginners.Vxlan.RoundTrip

/-!
# The outer headers of a VXLAN packet

`vxlan_encap` writes 48 of the 50 bytes before it reads any of them.  The other two are the header checksum:
`rte_ipv4_cksum` sums up what the headroom held in their place, an earlier packet perhaps.  So the checksum
verifies if and only if these bytes were zero or all ones, and the headers are those of the length of the
frame if and only if they were (`outer_header_iff`).
-/

namespace DpdkBeginners.Vxlan

open DpdkBeginners.Rte
open Function (update update_self update_of_ne)

variable {E : Env} {m m₁ p : Pktmbuf} {b b' : Bytes} {timerHz : U64} {i k o : ℕ} {len : U16}

/-! ### Where the headers start makes no difference -/

theorem shift_writeEther : shift k (writeEther b (k + o)) = writeEther (shift k b) o := by
  simp only [writeEther, Nat.add_assoc, shift_store16, shift_storeBytes]

theorem shift_writeIpv4 (timerHz : U64) :
    shift k (writeIpv4 b (rteDocumented timerHz) (k + o) len) =
      writeIpv4 (shift k b) (rteDocumented timerHz) o len := by
  have hcksum : ∀ d, (rteDocumented timerHz).ipv4Cksum d (k + o) =
      (rteDocumented timerHz).ipv4Cksum (shift k d) o := by
    intro d
    show ~~~ foldSum (rawSum d (k + o) _) = ~~~ foldSum (rawSum (shift k d) o _)
    rw [rawSum_shift]
    rfl
  simp only [writeIpv4, hcksum, Nat.add_assoc, shift_store16, shift_store32, shift_update]

theorem shift_writeUdp : shift k (writeUdp b (k + o) len) = writeUdp (shift k b) o len := by
  simp only [writeUdp, Nat.add_assoc, shift_store16]

theorem shift_writeVxlan : shift k (writeVxlan b (k + o)) = writeVxlan (shift k b) o := by
  simp only [writeVxlan, Nat.add_assoc, shift_store32]

theorem shift_writeHeaders (timerHz : U64) :
    shift k (writeHeaders b (rteDocumented timerHz) (k + o) len) =
      writeHeaders (shift k b) (rteDocumented timerHz) o len := by
  simp only [writeHeaders, Nat.add_assoc, shift_writeVxlan, shift_writeUdp, shift_writeIpv4,
    shift_writeEther]

theorem data_vxlanEncap (h : vxlanEncap (rteDocumented timerHz) m = some m₁) :
    m₁.mtod.data =
      writeHeaders (shift (m.dataOff - headersLen) m.buf) (rteDocumented timerHz) 0 m.pktLen := by
  obtain ⟨p, hp, rfl⟩ := Option.map_eq_some_iff.1 h
  obtain ⟨hbuf, hoff, -⟩ := Pktmbuf.prepend_spec hp
  rw [← hbuf, ← hoff, Nat.add_sub_cancel]
  exact shift_writeHeaders (k := p.dataOff) (o := 0) timerHz

/-! ### What is written over -/

theorem writeEther_congr {eth : ℕ} (h : i < eth ∨ eth + 14 ≤ i → b i = b' i) :
    writeEther b eth i = writeEther b' eth i := by
  unfold writeEther
  refine store16_congr fun h₁ => storeBytes_congr fun h₂ => storeBytes_congr fun h₃ => h ?_
  simp only [List.length_cons, List.length_nil] at h₂ h₃
  omega

theorem writeUdp_congr {udp : ℕ} (h : i < udp ∨ udp + 8 ≤ i → b i = b' i) :
    writeUdp b udp len i = writeUdp b' udp len i := by
  unfold writeUdp
  refine store16_congr fun h₁ => store16_congr fun h₂ => ?_
  exact store16_congr fun h₃ => store16_congr fun h₄ => h (by omega)

theorem writeVxlan_congr {vxlan : ℕ} (h : i < vxlan ∨ vxlan + 8 ≤ i → b i = b' i) :
    writeVxlan b vxlan i = writeVxlan b' vxlan i := by
  unfold writeVxlan
  exact store32_congr fun h₁ => store32_congr fun h₂ => h (by omega)

/-! ### The header checksum -/

/-- The IPv4 header before its checksum is computed. -/
def ipv4Fields (b : Bytes) (ip : ℕ) (totalLength : U16) : Bytes :=
  let b := update b ip 0x45
  let b := update b (ip + 1) 0
  let b := store16 b (ip + 2) (rteCpuToBe16 totalLength)
  let b := store16 b (ip + 4) 0
  let b := store16 b (ip + 6) 0
  let b := update b (ip + 8) 64
  let b := update b (ip + 9) ipprotoUdp
  let b := store32 b (ip + 12) (rteCpuToBe32 (rteIpv4 10 0 0 1))
  store32 b (ip + 16) (rteCpuToBe32 (rteIpv4 10 0 0 2))

theorem writeIpv4_eq (E : Env) (b : Bytes) (ip : ℕ) (totalLength : U16) :
    writeIpv4 b E ip totalLength = store16 (ipv4Fields b ip totalLength) (ip + 10)
      (E.ipv4Cksum (ipv4Fields b ip totalLength) ip) := rfl

theorem ipv4Fields_congr {ip : ℕ}
    (h : (i < ip ∨ ip + 20 ≤ i ∨ ip + 10 ≤ i ∧ i < ip + 12) → b i = b' i) :
    ipv4Fields b ip len i = ipv4Fields b' ip len i := by
  unfold ipv4Fields
  refine store32_congr fun h₁ => store32_congr fun h₂ => update_congr fun h₃ => update_congr fun h₄ => ?_
  refine store16_congr fun h₅ => store16_congr fun h₆ => store16_congr fun h₇ => ?_
  exact update_congr fun h₈ => update_congr fun h₉ => h (by omega)

theorem ipv4Fields_apply {ip : ℕ} (h : i < ip ∨ ip + 20 ≤ i ∨ ip + 10 ≤ i ∧ i < ip + 12) :
    ipv4Fields b ip len i = b i := by
  unfold ipv4Fields
  rw [store32_apply _ (by omega), store32_apply _ (by omega), update_of_ne (by omega),
    update_of_ne (by omega), store16_apply _ (by omega), store16_apply _ (by omega),
    store16_apply _ (by omega), update_of_ne (by omega), update_of_ne (by omega)]

theorem ipv4Fields_versionIhl (ip : ℕ) : ipv4Fields b ip len ip = 0x45 := by
  unfold ipv4Fields
  rw [store32_apply _ (by omega), store32_apply _ (by omega), update_of_ne (by omega),
    update_of_ne (by omega), store16_apply _ (by omega), store16_apply _ (by omega),
    store16_apply _ (by omega), update_of_ne (by omega), update_self]

theorem load16_zero (o : ℕ) : load16 (fun _ => 0) o = 0 := by
  show (0#8 ++ 0#8 : U16) = 0
  decide

theorem hdrLen_ipv4Fields (b : Bytes) (ip : ℕ) (len : U16) : hdrLen (ipv4Fields b ip len) ip = 20 := by
  rw [hdrLen, ipv4Fields_versionIhl]
  rfl

/-- The checksum that `vxlan_encap` writes depends on the two bytes it replaces. -/
theorem ipv4Cksum_ipv4Fields (timerHz : U64) {ip : ℕ} (hb : Blank (load16 b (ip + 10))) :
    (rteDocumented timerHz).ipv4Cksum (ipv4Fields b ip len) ip =
      (rteDocumented timerHz).ipv4Cksum (ipv4Fields (fun _ => 0) ip len) ip := by
  set d := ipv4Fields (fun _ => 0) ip len with hd
  have hzero : load16 d (ip + 10) = 0 := by
    have h : load16 d (ip + 10) = load16 (fun _ => 0) (ip + 10) :=
      load16_congr fun i h₁ h₂ => ipv4Fields_apply (by omega)
    rw [h, load16_zero]
  have hsum : rawSum (ipv4Fields b ip len) ip 20 = rawSum d ip 20 + (load16 b (ip + 10)).toNat := by
    have hsame : rawSum (ipv4Fields b ip len) ip 20 =
        rawSum (store16 d (ip + 2 * 5) (load16 b (ip + 10))) ip 20 := by
      refine rawSum_congr fun i h₁ h₂ => ?_
      by_cases hck : ip + 10 ≤ i ∧ i < ip + 12
      · rw [ipv4Fields_apply (by omega)]
        exact (store16_load16 fun h => absurd h (by omega)).symm
      · rw [store16_apply _ (by omega), hd]
        exact ipv4Fields_congr fun h => absurd h (by omega)
    have hswap := @rawSum_store16 d ip 20 5 (load16 b (ip + 10)) (by omega)
    rw [show ip + 2 * 5 = ip + 10 from rfl, hzero] at hswap
    rw [hsame]
    exact hswap
  have hpos : rawSum d ip 20 ≠ 0 := by
    have hle := le_load16 d ip
    have hle' : (load16 d ip).toNat ≤ rawSum d ip 20 := load16_le_rawSum (by omega)
    rw [hd, ipv4Fields_versionIhl, ← hd] at hle
    have hval : (0x45 : U8).toNat = 69 := rfl
    omega
  show ~~~ foldSum (rawSum _ ip (hdrLen (ipv4Fields b ip len) ip)) =
    ~~~ foldSum (rawSum d ip (hdrLen d ip))
  rw [hd, hdrLen_ipv4Fields, hdrLen_ipv4Fields, ← hd, hsum]
  rcases hb with hb | hb
  · rw [hb]
    rfl
  · rw [hb]
    exact congrArg _ (foldSum_add_ones hpos)

/-! ### The outer headers -/

/-- The headers before a frame of `len` bytes, when they are written over zeroes. -/
def outerHeader (E : Env) (len : U16) : Bytes := writeHeaders (fun _ => 0) E 0 len

/-- What the headroom held in the place of the header checksum. -/
def staleCksum (m : Pktmbuf) : U16 := load16 m.buf (m.dataOff - headersLen + 24)

/-- `m₁` starts with the outer headers that belong to the length of `m`, and the header checksum
verifies. -/
structure ValidOuter (timerHz : U64) (m m₁ : Pktmbuf) : Prop where
  checks : Checks (ipv4Sum m₁.mtod.data ipOff)
  bytes : ∀ i < headersLen, m₁.mtod.data i = outerHeader (rteDocumented timerHz) m.pktLen i

/-- The header checksum verifies if and only if there was nothing in its place. -/
theorem checks_writeHeaders (timerHz : U64) :
    Checks (ipv4Sum (writeHeaders b (rteDocumented timerHz) 0 len) ipOff) ↔ Blank (load16 b 24) := by
  set d := ipv4Fields (writeEther b 0) 14 (20 + 8 + 8 + len) with hd
  have hihl : hdrLen d ipOff = 20 := hdrLen_ipv4Fields ..
  set d' := store16 d (14 + 10) ((rteDocumented timerHz).ipv4Cksum d 14) with hd'
  have hihl' : hdrLen d' ipOff = 20 := (hdrLen_congr (store16_apply _ (by unfold ipOff; omega))).trans hihl
  have hsum : ipv4Sum (writeHeaders b (rteDocumented timerHz) 0 len) ipOff = ipv4Sum d' ipOff := by
    refine (ipv4Sum_congr (fun i h₁ h₂ => ?_) hihl').symm
    unfold ipOff at h₁ h₂
    unfold writeHeaders
    rw [writeVxlan_apply (by omega), writeUdp_apply _ (by omega)]
    rfl
  have hstale : load16 d (14 + 10) = load16 b 24 := by
    refine load16_congr fun i h₁ h₂ => ?_
    rw [hd, ipv4Fields_apply (by omega), writeEther_apply (by omega)]
  rw [hsum, ← hstale]
  exact ipv4_refill timerHz (Nat.le_of_eq hihl.symm)

theorem writeHeaders_eq (timerHz : U64) (hb : Blank (load16 b 24)) (hi : i < headersLen) :
    writeHeaders b (rteDocumented timerHz) 0 len i = outerHeader (rteDocumented timerHz) len i := by
  have hcksum : (rteDocumented timerHz).ipv4Cksum (ipv4Fields (writeEther b 0) 14 (20 + 8 + 8 + len)) 14 =
      (rteDocumented timerHz).ipv4Cksum
        (ipv4Fields (writeEther (fun _ => 0) 0) 14 (20 + 8 + 8 + len)) 14 := by
    have hether : ∀ b, load16 (writeEther b 0) (14 + 10) = load16 b 24 :=
      fun b => load16_congr fun i h₁ h₂ => writeEther_apply (by omega)
    rw [ipv4Cksum_ipv4Fields timerHz ((hether b).symm ▸ hb)]
    exact (ipv4Cksum_ipv4Fields timerHz (.inl ((hether _).trans (load16_zero 24)))).symm
  unfold headersLen at hi
  unfold outerHeader writeHeaders
  refine writeVxlan_congr fun h₁ => writeUdp_congr fun h₂ => ?_
  rw [writeIpv4_eq, writeIpv4_eq, hcksum]
  exact store16_congr fun h₃ => ipv4Fields_congr fun h₄ => writeEther_congr fun h₅ => absurd h₅ (by omega)

/-- **The outer headers.**  After `vxlan_encap` the header checksum verifies and every byte of the outer headers
is that of the length of the frame, if and only if the headroom held zero or all ones where the header checksum
goes. -/
theorem outer_header_iff (h : vxlanEncap (rteDocumented timerHz) m = some m₁) :
    ValidOuter timerHz m m₁ ↔ Blank (staleCksum m) := by
  have hdata := data_vxlanEncap h
  have hstale : staleCksum m = load16 (shift (m.dataOff - headersLen) m.buf) 24 := load16_shift.symm
  have hchecks := @checks_writeHeaders (shift (m.dataOff - headersLen) m.buf) m.pktLen timerHz
  rw [← hdata, ← hstale] at hchecks
  constructor
  · exact fun hv => hchecks.1 hv.checks
  · intro hb
    refine ⟨hchecks.2 hb, fun i hi => ?_⟩
    rw [hdata]
    rw [hstale] at hb
    exact writeHeaders_eq timerHz hb hi

theorem outer_header_received :
    ∃ m₁, vxlanEncap ghz received = some m₁ ∧ ValidOuter 1000000000 received m₁ := by
  obtain ⟨m₁, h₁⟩ := vxlanEncap_of_le ghz (m := received) (by decide)
  exact ⟨m₁, h₁, (outer_header_iff h₁).2 (by decide)⟩

/-- The same packet in a buffer whose headroom an earlier packet has used: its byte 102 is one. -/
def reused : Pktmbuf := { received with buf := update received.buf 102 1 }

/-- **The checksum does not verify** then. -/
theorem stale_headroom :
    ¬ ∃ f : ℕ → ℕ → U8, ∀ m m₁, vxlanEncap ghz m = some m₁ →
      Checks (ipv4Sum m₁.mtod.data ipOff) ∧
        ∀ i < headersLen, m₁.mtod.data i = f m.dataLen i := by
  rintro ⟨f, hf⟩
  obtain ⟨m₁, h₁⟩ := vxlanEncap_of_le ghz (m := reused) (by decide)
  have hchecks := @checks_writeHeaders (shift (reused.dataOff - headersLen) reused.buf) reused.pktLen
    1000000000
  rw [← data_vxlanEncap h₁] at hchecks
  exact absurd (hchecks.1 (hf reused m₁ h₁).1) (by decide)

end DpdkBeginners.Vxlan
