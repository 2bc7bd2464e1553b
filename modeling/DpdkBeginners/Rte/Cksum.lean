import DpdkBeginners.Rte.Env
import DpdkBeginners.Rte.Mbuf

/-!
# Internet checksums

A checksum field is right when the one's-complement sum of the words it covers, the field among them, is
all ones.  In arithmetic: the sum is a positive multiple of 65535 (`checks_iff`), and the complement of a
folded sum is its negative modulo 65535 (`dvd_add_compl_foldSum`).

So a checksum that was summed up with an old value `c` still in its field is right if and only if `c` is
zero modulo 65535 (`checks_refill`): a zero, or all ones.
-/

namespace DpdkBeginners.Rte

variable {d d' : Bytes} {o n k ip : ℕ}

/-! ### The arithmetic -/

/-- The words of a message with a right checksum add up to `x`. -/
def Checks (x : ℕ) : Prop := foldSum x = 0xffff

theorem foldSum_toNat (x : ℕ) :
    (foldSum x).toNat = if x = 0 then 0 else (x - 1) % 65535 + 1 := by
  rw [foldSum, BitVec.toNat_ofNat, Nat.mod_eq_of_lt]
  split_ifs <;> omega

theorem checks_iff {x : ℕ} : Checks x ↔ x ≠ 0 ∧ 65535 ∣ x := by
  have hval : Checks x ↔ (foldSum x).toNat = 65535 :=
    ⟨fun h => by rw [h]; rfl, fun h => BitVec.eq_of_toNat_eq h⟩
  rw [hval, foldSum_toNat]
  by_cases hx : x = 0
  · simp [hx]
  · rw [if_neg hx]
    omega

theorem dvd_add_compl_foldSum (x : ℕ) : 65535 ∣ x + (~~~ foldSum x).toNat := by
  rw [BitVec.toNat_not, foldSum_toNat]
  split_ifs with hx
  · omega
  · omega

/-- `x` is the sum with the old value `c` in the field and `y` the sum with the checksum `v`. -/
theorem checks_refill {x y c v : ℕ} (hy : y + c = x + v) (hv : 65535 ∣ x + v) (hpos : y ≠ 0) :
    Checks y ↔ 65535 ∣ c := by
  rw [checks_iff]
  rw [← hy] at hv
  exact ⟨fun h => (Nat.dvd_add_right h.2).1 hv, fun h => ⟨hpos, (Nat.dvd_add_left h).1 hv⟩⟩

theorem foldSum_add_ones {x : ℕ} (hx : x ≠ 0) : foldSum (x + 65535) = foldSum x := by
  apply BitVec.eq_of_toNat_eq
  rw [foldSum_toNat, foldSum_toNat, if_neg hx, if_neg (by omega)]
  omega

/-- The words that are zero modulo 65535. -/
def Blank (c : U16) : Prop := c = 0 ∨ c = 0xffff

instance : DecidablePred Blank := fun _ => inferInstanceAs (Decidable (_ ∨ _))

theorem dvd_toNat_iff {c : U16} : 65535 ∣ c.toNat ↔ Blank c := by
  have hlt := c.isLt
  constructor
  · intro h
    have hval : c.toNat = 0 ∨ c.toNat = 65535 := by omega
    rcases hval with h | h
    · exact .inl (BitVec.eq_of_toNat_eq h)
    · exact .inr (BitVec.eq_of_toNat_eq h)
  · rintro (rfl | rfl)
    · exact Nat.dvd_zero _
    · exact Nat.dvd_refl _

/-! ### Sums of words -/

theorem rawSum_congr (h : ∀ i, o ≤ i → i < o + n → d i = d' i) : rawSum d o n = rawSum d' o n := by
  fun_induction rawSum d o n with
  | case1 o => rfl
  | case2 o => rw [rawSum, h o (by omega) (by omega)]
  | case3 o n ih =>
    rw [rawSum, load16_congr fun i h₁ h₂ => h i h₁ (by omega),
      ih fun i h₁ h₂ => h i (by omega) (by omega)]

theorem rawSum_store16 (v : U16) (hk : 2 * k + 2 ≤ n) :
    rawSum (store16 d (o + 2 * k) v) o n + (load16 d (o + 2 * k)).toNat = rawSum d o n + v.toNat := by
  induction k generalizing o n with
  | zero =>
    obtain ⟨n, rfl⟩ : ∃ n', n = n' + 2 := ⟨n - 2, by omega⟩
    have hrest : rawSum (store16 d o v) (o + 2) n = rawSum d (o + 2) n :=
      rawSum_congr fun i h₁ h₂ => store16_apply v (by omega)
    rw [Nat.mul_zero, Nat.add_zero, rawSum, rawSum, load16_store16, hrest]
    omega
  | succ k ih =>
    obtain ⟨n, rfl⟩ : ∃ n', n = n' + 2 := ⟨n - 2, by omega⟩
    have hoff : o + 2 * (k + 1) = o + 2 + 2 * k := by omega
    have hrest := @ih (o + 2) n (by omega)
    rw [hoff, rawSum, rawSum, load16_store16_of_disjoint _ (by omega)]
    omega

theorem rawSum_shift (d : Bytes) (k o n : ℕ) : rawSum (shift k d) o n = rawSum d (k + o) n := by
  fun_induction rawSum (shift k d) o n with
  | case1 o => rfl
  | case2 o => rfl
  | case3 o n ih => rw [rawSum, ih, load16_shift, Nat.add_assoc]

theorem load16_le_rawSum (hn : 2 ≤ n) : (load16 d o).toNat ≤ rawSum d o n := by
  obtain ⟨n, rfl⟩ : ∃ n', n = n' + 2 := ⟨n - 2, by omega⟩
  rw [rawSum]
  omega

/-! ### The sums of an IPv4 packet -/

/-- The length of the IPv4 header at `ip`. -/
def hdrLen (d : Bytes) (ip : ℕ) : ℕ := 4 * ((d ip).toNat % 16)

/-- `total_length`, in host order. -/
def totalLength (d : Bytes) (ip : ℕ) : ℕ := (rteBeToCpu16 (load16 d (ip + 2))).toNat

/-- The fragment offset of the IPv4 header at `ip`, in units of eight bytes. -/
def fragmentOffset (d : Bytes) (ip : ℕ) : U16 := rteBeToCpu16 (load16 d (ip + 6)) &&& 0x1fff

/-- The length of the TCP or UDP message. -/
def l4Len (d : Bytes) (ip : ℕ) : ℕ := totalLength d ip - hdrLen d ip

theorem hdrLen_congr (h : d ip = d' ip) : hdrLen d ip = hdrLen d' ip := by
  rw [hdrLen, h, hdrLen]

theorem ihl_eq (d : Bytes) (ip : ℕ) : (d ip &&& 0x0f).toNat * 4 = hdrLen d ip := by
  have hmod : (d ip &&& 0x0f).toNat = (d ip).toNat % 16 := by
    rw [BitVec.toNat_and]
    exact Nat.and_two_pow_sub_one_eq_mod _ 4
  rw [hmod, hdrLen, Nat.mul_comm]

theorem toNat_ihl (d : Bytes) (ip : ℕ) :
    ((d ip &&& 0x0f).setWidth 16 * 4 : U16).toNat = hdrLen d ip ∧ hdrLen d ip ≤ 60 := by
  have hle : hdrLen d ip ≤ 60 := by
    unfold hdrLen
    omega
  have hihl := ihl_eq d ip
  have hfour : (4 : U16).toNat = 4 := rfl
  refine ⟨?_, hle⟩
  rw [BitVec.toNat_mul, BitVec.toNat_setWidth, hfour]
  omega

theorem totalLength_congr (h : ∀ i, ip ≤ i → i < ip + 4 → d i = d' i) :
    totalLength d ip = totalLength d' ip := by
  rw [totalLength, totalLength, load16_congr fun i h₁ h₂ => h i (by omega) (by omega)]

theorem l4Len_congr (h : ∀ i, ip ≤ i → i < ip + 4 → d i = d' i) : l4Len d ip = l4Len d' ip := by
  rw [l4Len, l4Len, hdrLen_congr (h ip (by omega) (by omega)), totalLength_congr h]

/-- What the header checksum covers. -/
def ipv4Sum (d : Bytes) (ip : ℕ) : ℕ := rawSum d ip (hdrLen d ip)

/-- The pseudo-header of a TCP or UDP message. -/
def pseudoSum (d : Bytes) (ip : ℕ) : ℕ :=
  rawSum d (ip + 12) 8 + (rteCpuToBe16 ((d (ip + 9)).setWidth 16)).toNat +
    (rteCpuToBe16 (BitVec.ofNat 16 (l4Len d ip))).toNat

/-- What the checksum of the TCP or UDP message at `l4` covers. -/
def udptcpSum (d : Bytes) (ip l4 : ℕ) : ℕ := rawSum d l4 (l4Len d ip) + pseudoSum d ip

section Documented

variable (timerHz : U64)

theorem dvd_add_ipv4Cksum (d : Bytes) (ip : ℕ) :
    65535 ∣ ipv4Sum d ip + ((rteDocumented timerHz).ipv4Cksum d ip).toNat :=
  dvd_add_compl_foldSum (ipv4Sum d ip)

theorem ipv4UdptcpCksum_eq {d : Bytes} {l4 : ℕ} (h : hdrLen d ip ≤ totalLength d ip) :
    (rteDocumented timerHz).ipv4UdptcpCksum d ip l4 =
      if ~~~ foldSum (udptcpSum d ip l4) = 0 ∧ d (ip + 9) = ipprotoUdp then 0xffff
      else ~~~ foldSum (udptcpSum d ip l4) :=
  if_neg (Nat.not_lt.2 h)

/-- All ones is as good as zero. -/
theorem dvd_add_udptcpCksum {d : Bytes} {l4 : ℕ} (h : hdrLen d ip ≤ totalLength d ip) :
    65535 ∣ udptcpSum d ip l4 + ((rteDocumented timerHz).ipv4UdptcpCksum d ip l4).toNat := by
  have hdvd := dvd_add_compl_foldSum (udptcpSum d ip l4)
  rw [ipv4UdptcpCksum_eq timerHz h]
  by_cases hzero : ~~~ foldSum (udptcpSum d ip l4) = 0 ∧ d (ip + 9) = ipprotoUdp
  · rw [if_pos hzero]
    rw [hzero.1] at hdvd
    exact (Nat.dvd_add_left (Nat.dvd_refl 65535)).2 hdvd
  · rwa [if_neg hzero]

/-- A UDP checksum is never sent as zero. -/
theorem ipv4UdptcpCksum_ne_zero {d : Bytes} {l4 : ℕ} (h : hdrLen d ip ≤ totalLength d ip)
    (hudp : d (ip + 9) = ipprotoUdp) : (rteDocumented timerHz).ipv4UdptcpCksum d ip l4 ≠ 0 := by
  rw [ipv4UdptcpCksum_eq timerHz h]
  by_cases hzero : ~~~ foldSum (udptcpSum d ip l4) = 0
  · rw [if_pos ⟨hzero, hudp⟩]
    decide
  · rwa [if_neg fun hboth => hzero hboth.1]

theorem compl_foldSum_succ_ne (x : ℕ) : ~~~ foldSum (x + 1) ≠ ~~~ foldSum x := by
  intro h
  have hval := congrArg (fun v => (~~~ v).toNat) h
  simp only [BitVec.not_not, foldSum_toNat] at hval
  split_ifs at hval <;> omega

theorem compl_foldSum_eq_ones {x : ℕ} (h : ~~~ foldSum x = 0xffff) : x = 0 := by
  have hval := congrArg (fun v => (~~~ v).toNat) h
  simp only [BitVec.not_not, foldSum_toNat] at hval
  split_ifs at hval with hx
  · exact hx
  · exact absurd hval (Nat.succ_ne_zero _)

/-- **A TCP or UDP checksum changes** when the sum changes by one. -/
theorem ipv4UdptcpCksum_ne {l4 : ℕ} (h : hdrLen d ip ≤ totalLength d ip)
    (h' : hdrLen d' ip ≤ totalLength d' ip) (hproto : d (ip + 9) = d' (ip + 9))
    (hsum : udptcpSum d ip l4 = udptcpSum d' ip l4 + 1) :
    (rteDocumented timerHz).ipv4UdptcpCksum d ip l4 ≠
      (rteDocumented timerHz).ipv4UdptcpCksum d' ip l4 := by
  rw [ipv4UdptcpCksum_eq timerHz h, ipv4UdptcpCksum_eq timerHz h', hproto, hsum]
  have hne := compl_foldSum_succ_ne (udptcpSum d' ip l4)
  by_cases hz : ~~~ foldSum (udptcpSum d' ip l4) = 0 ∧ d' (ip + 9) = ipprotoUdp
  · rw [if_pos hz, if_neg fun hz' => hne (hz'.1.trans hz.1.symm)]
    intro hones
    exact absurd (compl_foldSum_eq_ones hones) (Nat.succ_ne_zero _)
  · rw [if_neg hz]
    by_cases hz' : ~~~ foldSum (udptcpSum d' ip l4 + 1) = 0 ∧ d' (ip + 9) = ipprotoUdp
    · rw [if_pos hz']
      intro hones
      rw [compl_foldSum_eq_ones hones.symm] at hz'
      exact absurd hz'.1 (by decide)
    · rwa [if_neg hz']

end Documented

theorem udptcpSum_add_src {l4 : ℕ} (hl4 : ip + 16 ≤ l4)
    (h : ∀ i, ip ≤ i → (i < ip + 10 ∨ ip + 16 ≤ i) → d i = d' i) :
    udptcpSum d ip l4 + ((load16 d' (ip + 12)).toNat + (load16 d' (ip + 14)).toNat) =
      udptcpSum d' ip l4 + ((load16 d (ip + 12)).toNat + (load16 d (ip + 14)).toNat) := by
  have hlen : l4Len d ip = l4Len d' ip := l4Len_congr fun i h₁ h₂ => h i h₁ (by omega)
  have hdst : rawSum d (ip + 16) 4 = rawSum d' (ip + 16) 4 :=
    rawSum_congr fun i h₁ _ => h i (by omega) (by omega)
  have hmsg : rawSum d l4 (l4Len d' ip) = rawSum d' l4 (l4Len d' ip) :=
    rawSum_congr fun i h₁ _ => h i (by omega) (by omega)
  have haddr : ∀ d, rawSum d (ip + 12) 8 =
      (load16 d (ip + 12)).toNat + ((load16 d (ip + 14)).toNat + rawSum d (ip + 16) 4) := by
    intro d
    rw [rawSum, rawSum]
  rw [udptcpSum, udptcpSum, pseudoSum, pseudoSum, hlen, haddr d, haddr d', hdst, hmsg,
    h (ip + 9) (by omega) (by omega)]
  omega

/-! ### Filling in a checksum -/

/-- The header agrees outside its checksum. -/
def SameHeader (d d' : Bytes) (ip : ℕ) : Prop :=
  ∀ i, ip ≤ i → i < ip + 20 → (i < ip + 10 ∨ ip + 12 ≤ i) → d i = d' i

theorem SameHeader.l4Len (h : SameHeader d d' ip) : l4Len d ip = Rte.l4Len d' ip :=
  l4Len_congr fun i h₁ h₂ => h i h₁ (by omega) (by omega)

theorem SameHeader.pseudoSum (h : SameHeader d d' ip) : pseudoSum d ip = Rte.pseudoSum d' ip := by
  rw [Rte.pseudoSum, Rte.pseudoSum, h.l4Len, h (ip + 9) (by omega) (by omega) (by omega),
    rawSum_congr fun i h₁ h₂ => h i (by omega) (by omega) (by omega)]

theorem le_load16 (d : Bytes) (o : ℕ) : (d o).toNat ≤ (load16 d o).toNat := by
  rw [load16, BitVec.toNat_append]
  exact Nat.right_le_or

/-- **The header checksum**, when it is computed with the old value of the field. -/
theorem ipv4_refill (timerHz : U64) (hihl : 20 ≤ hdrLen d ip) :
    Checks (ipv4Sum (store16 d (ip + 10) ((rteDocumented timerHz).ipv4Cksum d ip)) ip) ↔
      Blank (load16 d (ip + 10)) := by
  set v := (rteDocumented timerHz).ipv4Cksum d ip with hv
  have hbyte : store16 d (ip + 10) v ip = d ip := store16_apply v (by omega)
  have hsum : ipv4Sum (store16 d (ip + 10) v) ip =
      rawSum (store16 d (ip + 10) v) ip (hdrLen d ip) := by
    rw [ipv4Sum, hdrLen_congr hbyte]
  have hswap := @rawSum_store16 d ip (hdrLen d ip) 5 v (by omega)
  have hpos : 0 < (d ip).toNat := by
    unfold hdrLen at hihl
    omega
  have hle := le_load16 (store16 d (ip + 10) v) ip
  have hle' : (load16 (store16 d (ip + 10) v) ip).toNat ≤
      rawSum (store16 d (ip + 10) v) ip (hdrLen d ip) :=
    load16_le_rawSum (by omega)
  rw [← dvd_toNat_iff, hsum]
  refine checks_refill hswap ?_ ?_
  · exact dvd_add_ipv4Cksum timerHz d ip
  · rw [hbyte] at hle
    omega

/-- **The TCP or UDP checksum**, the `k`-th word of its message, likewise. -/
theorem udptcp_refill (timerHz : U64) (hihl : hdrLen d ip = 20) (hk : 2 * k + 2 ≤ l4Len d ip)
    (hproto : d (ip + 9) ≠ 0) :
    Checks (udptcpSum
        (store16 d (ip + 20 + 2 * k) ((rteDocumented timerHz).ipv4UdptcpCksum d ip (ip + 20)))
        ip (ip + 20)) ↔
      Blank (load16 d (ip + 20 + 2 * k)) := by
  set v := (rteDocumented timerHz).ipv4UdptcpCksum d ip (ip + 20) with hv
  have hsame : SameHeader (store16 d (ip + 20 + 2 * k) v) d ip :=
    fun i h₁ h₂ _ => store16_apply v (by omega)
  have hswap := rawSum_store16 (d := d) (o := ip + 20) v hk
  have hlen : hdrLen d ip ≤ totalLength d ip := by
    unfold l4Len at hk
    omega
  have hdvd : 65535 ∣ udptcpSum d ip (ip + 20) + v.toNat := dvd_add_udptcpCksum timerHz hlen
  have hpos : (rteCpuToBe16 ((d (ip + 9)).setWidth 16)).toNat ≠ 0 := by
    intro hzero
    have h₁ : rteCpuToBe16 ((d (ip + 9)).setWidth 16) = rteCpuToBe16 0 := BitVec.eq_of_toNat_eq hzero
    have h₂ : (d (ip + 9)).setWidth 16 = (0 : U16) := bswap16_injective h₁
    refine hproto (BitVec.eq_of_toNat_eq ?_)
    have h₃ := congrArg BitVec.toNat h₂
    have hlt := (d (ip + 9)).isLt
    rw [BitVec.toNat_setWidth, Nat.mod_eq_of_lt (by omega)] at h₃
    exact h₃
  have hle : (rteCpuToBe16 ((d (ip + 9)).setWidth 16)).toNat ≤ pseudoSum d ip := by
    unfold pseudoSum
    omega
  rw [← dvd_toNat_iff]
  rw [udptcpSum] at hdvd ⊢
  rw [hsame.l4Len, hsame.pseudoSum]
  refine checks_refill ?_ hdvd ?_
  · omega
  · omega

theorem udptcpSum_store_hdrChecksum (v : U16) :
    udptcpSum (store16 d (ip + 10) v) ip (ip + 20) = udptcpSum d ip (ip + 20) := by
  have hsame : SameHeader (store16 d (ip + 10) v) d ip :=
    fun i _ _ h => store16_apply v (by omega)
  rw [udptcpSum, udptcpSum, hsame.l4Len, hsame.pseudoSum,
    rawSum_congr fun i h₁ _ => store16_apply v (by omega)]

/-- Both checksums are computed and stored, the one of the TCP or UDP message first, which is its `k`-th
word. -/
def storeCksums (E : Env) (d : Bytes) (ip k : ℕ) : Bytes :=
  let d := store16 d (ip + 20 + 2 * k) (E.ipv4UdptcpCksum d ip (ip + 20))
  store16 d (ip + 10) (E.ipv4Cksum d ip)

theorem storeCksums_apply (E : Env) {i : ℕ} (h : i < ip + 10 ∨ ip + 12 ≤ i)
    (h' : i < ip + 20 + 2 * k ∨ ip + 20 + 2 * k + 2 ≤ i) : storeCksums E d ip k i = d i := by
  rw [storeCksums, store16_apply _ (by omega), store16_apply _ (by omega)]

theorem storeCksums_l4 (E : Env) (d : Bytes) (ip k : ℕ) :
    load16 (storeCksums E d ip k) (ip + 20 + 2 * k) = E.ipv4UdptcpCksum d ip (ip + 20) := by
  rw [storeCksums, load16_store16_of_disjoint _ (by omega), load16_store16]

/-- **The checksums of a packet**, when they are computed with the old values of the fields. -/
theorem checks_storeCksums (timerHz : U64) (hihl : hdrLen d ip = 20) (hk : 2 * k + 2 ≤ l4Len d ip)
    (hproto : d (ip + 9) ≠ 0) :
    (Checks (ipv4Sum (storeCksums (rteDocumented timerHz) d ip k) ip) ↔
      Blank (load16 d (ip + 10))) ∧
    (Checks (udptcpSum (storeCksums (rteDocumented timerHz) d ip k) ip (ip + 20)) ↔
      Blank (load16 d (ip + 20 + 2 * k))) := by
  unfold storeCksums
  set v := (rteDocumented timerHz).ipv4UdptcpCksum d ip (ip + 20) with hv
  constructor
  · have hihl' : hdrLen (store16 d (ip + 20 + 2 * k) v) ip = 20 :=
      (hdrLen_congr (store16_apply v (by omega))).trans hihl
    rw [ipv4_refill timerHz (Nat.le_of_eq hihl'.symm), load16_store16_of_disjoint v (by omega)]
  · rw [udptcpSum_store_hdrChecksum]
    exact udptcp_refill timerHz hihl hk hproto

/-! ### Zeroing a checksum first -/

/-- The header checksum is zeroed, computed and stored. -/
def fillIpv4 (E : Env) (d : Bytes) (ip : ℕ) : Bytes :=
  let d := store16 d (ip + 10) 0
  store16 d (ip + 10) (E.ipv4Cksum d ip)

/-- The checksum of the TCP or UDP message likewise, which is its `k`-th word. -/
def fillUdptcp (E : Env) (d : Bytes) (ip k : ℕ) : Bytes :=
  let d := store16 d (ip + 20 + 2 * k) 0
  store16 d (ip + 20 + 2 * k) (E.ipv4UdptcpCksum d ip (ip + 20))

theorem fillIpv4_apply (E : Env) {i : ℕ} (h : i < ip + 10 ∨ ip + 12 ≤ i) : fillIpv4 E d ip i = d i := by
  rw [fillIpv4, store16_apply _ (by omega), store16_apply _ (by omega)]

theorem fillUdptcp_apply (E : Env) {i : ℕ} (h : i < ip + 20 + 2 * k ∨ ip + 20 + 2 * k + 2 ≤ i) :
    fillUdptcp E d ip k i = d i := by
  rw [fillUdptcp, store16_apply _ (by omega), store16_apply _ (by omega)]

theorem fillUdptcp_l4 (E : Env) (d : Bytes) (ip k : ℕ) :
    load16 (fillUdptcp E d ip k) (ip + 20 + 2 * k) =
      E.ipv4UdptcpCksum (store16 d (ip + 20 + 2 * k) 0) ip (ip + 20) := load16_store16 _

/-- **The header checksum** verifies, whatever was in its field. -/
theorem checks_fillIpv4 (timerHz : U64) (hihl : 20 ≤ hdrLen d ip) :
    Checks (ipv4Sum (fillIpv4 (rteDocumented timerHz) d ip) ip) := by
  have hbyte : store16 d (ip + 10) 0 ip = d ip := store16_apply 0 (by omega)
  refine (ipv4_refill timerHz ?_).2 (.inl (load16_store16 0))
  rwa [hdrLen_congr hbyte]

/-- **The TCP or UDP checksum** likewise. -/
theorem checks_fillUdptcp (timerHz : U64) (hihl : hdrLen d ip = 20) (hk : 2 * k + 2 ≤ l4Len d ip)
    (hproto : d (ip + 9) ≠ 0) :
    Checks (udptcpSum (fillUdptcp (rteDocumented timerHz) d ip k) ip (ip + 20)) := by
  have hsame : SameHeader (store16 d (ip + 20 + 2 * k) 0) d ip :=
    fun i h₁ h₂ _ => store16_apply 0 (by omega)
  refine (udptcp_refill timerHz ?_ ?_ ?_).2 (.inl (load16_store16 0))
  · rwa [hdrLen_congr (store16_apply 0 (by omega))]
  · rwa [hsame.l4Len]
  · rwa [hsame (ip + 9) (by omega) (by omega) (by omega)]

theorem fillUdptcp_ne_zero (timerHz : U64) (h : hdrLen d ip ≤ totalLength d ip)
    (hudp : d (ip + 9) = ipprotoUdp) :
    load16 (fillUdptcp (rteDocumented timerHz) d ip k) (ip + 20 + 2 * k) ≠ 0 := by
  have hsame : ∀ i < ip + 20, store16 d (ip + 20 + 2 * k) 0 i = d i :=
    fun i _ => store16_apply 0 (by omega)
  rw [fillUdptcp_l4]
  refine ipv4UdptcpCksum_ne_zero timerHz ?_ ((hsame _ (by omega)).trans hudp)
  rwa [hdrLen_congr (hsame _ (by omega)), totalLength_congr fun i _ _ => hsame i (by omega)]

theorem ipv4Sum_congr (h : ∀ i, ip ≤ i → i < ip + 20 → d i = d' i) (hihl : hdrLen d ip = 20) :
    ipv4Sum d ip = ipv4Sum d' ip := by
  rw [ipv4Sum, ipv4Sum, ← hdrLen_congr (h ip (by omega) (by omega)), hihl, rawSum_congr h]

/-! ### Packets -/

namespace Mbuf

variable (m : Mbuf)

def hdrChecksum : U16 := load16 m.data 24
def dgramCksum : U16 := load16 m.data 40
def tcpCksum : U16 := load16 m.data 50

/-- The checksum field of the TCP or UDP header. -/
def l4Cksum : U16 := if m.nextProtoId = ipprotoTcp then m.tcpCksum else m.dgramCksum

/-- A complete, unfragmented TCP or UDP packet with an IPv4 header of 20 bytes. -/
structure Complete : Prop where
  ipv4 : m.IsIpv4
  versionIhl : m.data 14 = 0x45
  unfragmented : rteBeToCpu16 (load16 m.data 20) &&& 0x3fff = 0
  proto : m.nextProtoId = ipprotoTcp ∨ m.nextProtoId = ipprotoUdp
  l4Header : (if m.nextProtoId = ipprotoTcp then 20 else 8) ≤ l4Len m.data ipOff
  frame : ipOff + totalLength m.data ipOff ≤ m.dataLen

/-- Both checksums verify; a UDP checksum of zero is none. -/
def ChecksumsOk : Prop :=
  Checks (ipv4Sum m.data ipOff) ∧
    (m.nextProtoId = ipprotoUdp ∧ m.dgramCksum = 0 ∨ Checks (udptcpSum m.data ipOff l4Off))

end Mbuf

end DpdkBeginners.Rte
