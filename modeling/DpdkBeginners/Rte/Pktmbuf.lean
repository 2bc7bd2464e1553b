import DpdkBeginners.Rte.Mbuf

/-!
# Mbufs with their headroom

An mbuf of one segment: the whole buffer, where the data starts in it and how long it is.  The programs
read the data from its first byte on (`Pktmbuf.mtod`).  Prepending moves that byte into the headroom and
adjusting moves it back; neither changes a byte of the buffer.  What goes over the wire is the frame.
-/

namespace DpdkBeginners.Rte

/-! ### Storing a few bytes -/

/-- A copy of `bs` to the offset `o`. -/
def storeBytes (d : Bytes) (o : ℕ) (bs : List U8) : Bytes :=
  fun i => if o ≤ i then bs.getD (i - o) (d i) else d i

theorem storeBytes_apply {d : Bytes} {o i : ℕ} {bs : List U8} (h : i < o ∨ o + bs.length ≤ i) :
    storeBytes d o bs i = d i := by
  unfold storeBytes
  by_cases ho : o ≤ i
  · rw [if_pos ho, List.getD_eq_getElem?_getD, List.getElem?_eq_none (by omega), Option.getD_none]
  · rw [if_neg ho]

theorem storeBytes_congr {d d' : Bytes} {o i : ℕ} {bs : List U8}
    (h : i < o ∨ o + bs.length ≤ i → d i = d' i) : storeBytes d o bs i = storeBytes d' o bs i := by
  by_cases hi : i < o ∨ o + bs.length ≤ i
  · rw [storeBytes_apply hi, storeBytes_apply hi, h hi]
  · unfold storeBytes
    have hlt : i - o < bs.length := by omega
    rw [if_pos (by omega), if_pos (by omega), List.getD_eq_getElem?_getD, List.getD_eq_getElem?_getD,
      List.getElem?_eq_getElem hlt]
    rfl

theorem shift_storeBytes {d : Bytes} {k o : ℕ} (bs : List U8) :
    shift k (storeBytes d (k + o) bs) = storeBytes (shift k d) o bs := by
  funext i
  unfold shift storeBytes
  by_cases hi : o ≤ i
  · rw [if_pos (by omega), if_pos hi, Nat.add_sub_add_left]
  · rw [if_neg (by omega), if_neg hi]

/-! ### Buffers -/

/-- `RTE_MBUF_DEFAULT_BUF_SIZE`: 2048 bytes of data and a headroom of 128. -/
def rteMbufDefaultBufSize : ℕ := 2048 + 128

/-- A packet buffer of one segment. -/
structure Pktmbuf where
  buf : Bytes
  dataOff : ℕ
  dataLen : ℕ
  /-- The data lies in the buffer. -/
  fits : dataOff + dataLen ≤ rteMbufDefaultBufSize

/-- The bytes of a packet. -/
def Mbuf.frame (m : Mbuf) : List U8 := (List.range m.dataLen).map m.data

theorem Mbuf.frame_eq_iff {m m' : Mbuf} :
    m.frame = m'.frame ↔ m.dataLen = m'.dataLen ∧ ∀ i < m.dataLen, m.data i = m'.data i := by
  constructor
  · intro h
    have hlen : m.dataLen = m'.dataLen := by simpa [frame] using congrArg List.length h
    refine ⟨hlen, ?_⟩
    intro i hi
    have hget := congrArg (fun l => l[i]?) h
    simpa [frame, hi, hlen ▸ hi] using hget
  · rintro ⟨hlen, hdata⟩
    unfold frame
    rw [← hlen]
    exact List.map_congr_left fun i hi => hdata i (List.mem_range.1 hi)

namespace Pktmbuf

variable (m : Pktmbuf)

/-- `rte_pktmbuf_mtod`, as the buffer that the headers are read from. -/
def mtod : Mbuf := ⟨fun i => m.buf (m.dataOff + i), m.dataLen⟩

/-- `rte_pktmbuf_pkt_len`, in the 16 bits that the program gives it. -/
def pktLen : U16 := BitVec.ofNat 16 m.dataLen

/-- What goes over the wire. -/
def frame : List U8 := m.mtod.frame

/-- `rte_pktmbuf_prepend`; `none` is the null pointer, when the headroom is too short. -/
def prepend (len : ℕ) : Option Pktmbuf :=
  if h : len ≤ m.dataOff then
    some ⟨m.buf, m.dataOff - len, m.dataLen + len, by have hfits := m.fits; omega⟩
  else none

/-- The mbuf after `rte_pktmbuf_adj`, which does nothing when the data is too short. -/
def adj (len : ℕ) : Pktmbuf :=
  if h : len ≤ m.dataLen then
    ⟨m.buf, m.dataOff + len, m.dataLen - len, by have hfits := m.fits; omega⟩
  else m

variable {m} in
theorem prepend_spec {len : ℕ} {p : Pktmbuf} (h : m.prepend len = some p) :
    p.buf = m.buf ∧ p.dataOff + len = m.dataOff ∧ p.dataLen = m.dataLen + len := by
  unfold prepend at h
  split_ifs at h with hroom
  obtain rfl := Option.some_inj.1 h
  exact ⟨rfl, Nat.sub_add_cancel hroom, rfl⟩

theorem prepend_of_le {len : ℕ} (h : len ≤ m.dataOff) : ∃ p, m.prepend len = some p :=
  ⟨_, dif_pos h⟩

theorem adj_spec {len : ℕ} (h : len ≤ m.dataLen) :
    (m.adj len).buf = m.buf ∧ (m.adj len).dataOff = m.dataOff + len ∧
      (m.adj len).dataLen = m.dataLen - len := by
  unfold adj
  rw [dif_pos h]
  exact ⟨rfl, rfl, rfl⟩

theorem length_frame : m.frame.length = m.dataLen := by
  rw [frame, Mbuf.frame, List.length_map, List.length_range]
  rfl

theorem frame_adj {len : ℕ} (h : len ≤ m.dataLen) : (m.adj len).frame = m.frame.drop len := by
  obtain ⟨hbuf, hoff, hlen⟩ := m.adj_spec h
  apply List.ext_getElem
  · rw [length_frame, List.length_drop, length_frame, hlen]
  · intro i h₁ h₂
    rw [List.getElem_drop]
    simp only [frame, Mbuf.frame, List.getElem_map, List.getElem_range]
    show (m.adj len).buf ((m.adj len).dataOff + i) = m.buf (m.dataOff + (len + i))
    rw [hbuf, hoff, Nat.add_assoc]

/-! ### Both ends of the data -/

/-- `rte_pktmbuf_append`; `none` is the null pointer, when the tailroom is too short. -/
def append (len : ℕ) : Option Pktmbuf :=
  if h : m.dataOff + m.dataLen + len ≤ rteMbufDefaultBufSize then
    some ⟨m.buf, m.dataOff, m.dataLen + len, by omega⟩
  else none

/-- The mbuf after `rte_pktmbuf_trim`, which does nothing when the data is too short. -/
def trim (len : ℕ) : Pktmbuf :=
  if h : len ≤ m.dataLen then ⟨m.buf, m.dataOff, m.dataLen - len, by have hfits := m.fits; omega⟩ else m

/-- The mbuf with the bytes `bs` stored from the offset `o` of the data on. -/
def write (o : ℕ) (bs : List U8) : Pktmbuf := { m with buf := storeBytes m.buf (m.dataOff + o) bs }

theorem getElem_frame {i : ℕ} (h : i < m.frame.length) : m.frame[i] = m.buf (m.dataOff + i) := by
  simp only [frame, Mbuf.frame, List.getElem_map, List.getElem_range]
  rfl

variable {m} in
theorem append_spec {len : ℕ} {p : Pktmbuf} (h : m.append len = some p) :
    p.buf = m.buf ∧ p.dataOff = m.dataOff ∧ p.dataLen = m.dataLen + len := by
  unfold append at h
  split_ifs at h with hroom
  obtain rfl := Option.some_inj.1 h
  exact ⟨rfl, rfl, rfl⟩

theorem append_eq_none_iff {len : ℕ} :
    m.append len = none ↔ rteMbufDefaultBufSize < m.dataOff + m.dataLen + len := by
  unfold append
  split_ifs with hroom
  · exact iff_of_false (by simp) (by omega)
  · exact iff_of_true rfl (by omega)

theorem storeBytes_self {d : Bytes} {o i : ℕ} {bs : List U8} (h : i < bs.length) :
    storeBytes d o bs (o + i) = bs[i] := by
  unfold storeBytes
  rw [if_pos (Nat.le_add_right o i), Nat.add_sub_cancel_left, List.getD_eq_getElem?_getD,
    List.getElem?_eq_getElem h, Option.getD_some]

theorem frame_append {p : Pktmbuf} {bs : List U8} (h : m.append bs.length = some p) :
    (p.write m.dataLen bs).frame = m.frame ++ bs := by
  obtain ⟨hbuf, hoff, hlen⟩ := append_spec h
  apply List.ext_getElem
  · rw [length_frame, List.length_append, length_frame]
    exact hlen
  · intro i h₁ h₂
    rw [getElem_frame]
    show storeBytes p.buf (p.dataOff + m.dataLen) bs (p.dataOff + i) = _
    by_cases hi : i < m.dataLen
    · rw [List.getElem_append_left (by rw [length_frame]; exact hi), getElem_frame, hbuf, hoff,
        storeBytes_apply (by omega)]
    · have hlt : i - m.dataLen < bs.length := by
        rw [List.length_append, length_frame] at h₂
        omega
      have hadd : p.dataOff + i = p.dataOff + m.dataLen + (i - m.dataLen) := by omega
      rw [List.getElem_append_right (by rw [length_frame]; omega), hadd, storeBytes_self hlt]
      simp only [length_frame]

theorem frame_prepend {p : Pktmbuf} {bs : List U8} (h : m.prepend bs.length = some p) :
    (p.write 0 bs).frame = bs ++ m.frame := by
  obtain ⟨hbuf, hoff, hlen⟩ := prepend_spec h
  apply List.ext_getElem
  · rw [length_frame, List.length_append, length_frame, Nat.add_comm]
    exact hlen
  · intro i h₁ h₂
    rw [getElem_frame]
    show storeBytes p.buf (p.dataOff + 0) bs (p.dataOff + i) = _
    rw [Nat.add_zero]
    by_cases hi : i < bs.length
    · rw [List.getElem_append_left hi, storeBytes_self hi]
    · have hadd : p.dataOff + i = m.dataOff + (i - bs.length) := by omega
      rw [List.getElem_append_right (by omega), getElem_frame, storeBytes_apply (by omega), hbuf, hadd]

theorem frame_trim {len : ℕ} (h : len ≤ m.dataLen) : (m.trim len).frame = m.frame.take (m.dataLen - len) := by
  have htrim : m.trim len = ⟨m.buf, m.dataOff, m.dataLen - len, by have hfits := m.fits; omega⟩ := dif_pos h
  apply List.ext_getElem
  · rw [length_frame, List.length_take, length_frame, htrim]
    exact (Nat.min_eq_left (Nat.sub_le ..)).symm
  · intro i h₁ h₂
    rw [List.getElem_take, getElem_frame, getElem_frame, htrim]

theorem pktLen_toNat : m.pktLen.toNat = m.dataLen := by
  have hfits := m.fits
  unfold rteMbufDefaultBufSize at hfits
  rw [pktLen, BitVec.toNat_ofNat, Nat.mod_eq_of_lt (by omega)]

end Pktmbuf

end DpdkBeginners.Rte
