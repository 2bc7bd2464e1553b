import DpdkBeginners.LoadBalancer.Defs
import Mathlib.Data.List.Basic

/-!
# Which backend a packet is sent to

The `k`-th TCP or UDP packet is rewritten for the backend `k % n_backends` (`rewriteBurst_selected`), and its
port is right.  But `backends` holds `RTE_IPV4` values, which are numbers in host order, and they are copied
into the header as they are: on a little-endian host the four bytes of the address are on the wire in
reverse (`sent_reversed`).  So the packets go to the configured backends only when there are none
(`delivered_iff`).
-/

namespace DpdkBeginners.LoadBalancer

open DpdkBeginners.Rte

variable {E : Env} {lb : Lb} {m : Mbuf} {pkts pre post : List Mbuf}

/-! ### One packet -/

/-- The packets that are balanced. -/
def IsL4 (m : Mbuf) : Prop :=
  m.IsIpv4 ∧ (m.nextProtoId = ipprotoTcp ∨ m.nextProtoId = ipprotoUdp)

instance : DecidablePred IsL4 := fun _ => inferInstanceAs (Decidable (_ ∧ (_ ∨ _)))

theorem rewriteL4Packet_l4 (h : IsL4 m) :
    rewriteL4Packet E lb m =
      (lb.count, rewriteFor E (lb.backends lb.selected) m, (lb.selected.val : Int)) := by
  have hproto : ¬ (m.nextProtoId ≠ ipprotoTcp ∧ m.nextProtoId ≠ ipprotoUdp) :=
    fun hn => h.2.elim hn.1 hn.2
  rw [rewriteL4Packet, if_neg (not_not.2 h.1), if_neg hproto]

theorem rewriteL4Packet_other (h : ¬ IsL4 m) : rewriteL4Packet E lb m = (lb, m, -1) := by
  unfold rewriteL4Packet
  by_cases hip : m.IsIpv4
  · have hproto : m.nextProtoId ≠ ipprotoTcp ∧ m.nextProtoId ≠ ipprotoUdp :=
      not_or.1 fun hor => h ⟨hip, hor⟩
    rw [if_neg (not_not.2 hip), if_pos hproto]
  · rw [if_pos hip]

theorem rewriteFor_header (E : Env) (bk : Backend)
    (hp : m.nextProtoId = ipprotoTcp ∨ m.nextProtoId = ipprotoUdp) :
    (rewriteFor E bk m).header = { m.header with dstAddr := bk.ip, dstPort := bk.port } := by
  have hproto : (m.setDstAddr bk.ip).nextProtoId = m.nextProtoId :=
    congrArg Header.proto (m.header_setDstAddr bk.ip)
  unfold rewriteFor
  simp only [hproto, Mbuf.header_setHdrChecksum]
  rcases hp with hp | hp
  · rw [if_pos hp]
    simp
  · rw [if_neg (ne_tcp_of_udp hp), if_pos hp]
    simp

/-! ### The packets of a run -/

theorem rewriteBurst_append (E : Env) (lb : Lb) (xs ys : List Mbuf) :
    rewriteBurst E lb (xs ++ ys) =
      ((rewriteBurst E (rewriteBurst E lb xs).1 ys).1,
        (rewriteBurst E lb xs).2 ++ (rewriteBurst E (rewriteBurst E lb xs).1 ys).2) := by
  induction xs generalizing lb with
  | nil => rfl
  | cons x xs ih =>
    simp only [List.cons_append, rewriteBurst, ih]

theorem rewriteBurst_length (E : Env) (lb : Lb) (pkts : List Mbuf) :
    (rewriteBurst E lb pkts).2.length = pkts.length := by
  induction pkts generalizing lb with
  | nil => rfl
  | cons m pkts ih => simp [rewriteBurst, ih]

theorem lcoreMain_flatten (E : Env) (lb : Lb) (bursts : List (List Mbuf)) :
    (lcoreMain E lb bursts).2.flatten = (rewriteBurst E lb bursts.flatten).2 := by
  induction bursts generalizing lb with
  | nil => rfl
  | cons pkts bursts ih =>
    simp only [lcoreMain, List.flatten_cons, rewriteBurst_append, ih]

theorem rewriteBurst_getElem? (E : Env) (lb : Lb) (pre : List Mbuf) (m : Mbuf) (post : List Mbuf) :
    (rewriteBurst E lb (pre ++ m :: post)).2[pre.length]? =
      some (rewriteL4Packet E (rewriteBurst E lb pre).1 m).2.1 := by
  rw [rewriteBurst_append, List.getElem?_append_right (Nat.le_of_eq (rewriteBurst_length ..)),
    rewriteBurst_length, Nat.sub_self]
  rfl

/-- **Round robin.**  The backends stay as they are, and each balanced packet moves on to the next one. -/
theorem rewriteBurst_selected (E : Env) (lb : Lb) (pkts : List Mbuf) :
    (rewriteBurst E lb pkts).1.backends = lb.backends ∧
      (rewriteBurst E lb pkts).1.nextBackend.toNat =
        (lb.nextBackend.toNat + pkts.countP IsL4) % nBackends := by
  induction pkts generalizing lb with
  | nil =>
    refine ⟨rfl, ?_⟩
    exact (Nat.mod_eq_of_lt lb.inRange).symm
  | cons m pkts ih =>
    by_cases h : IsL4 m
    · have hstep : (rewriteBurst E lb (m :: pkts)).1 = (rewriteBurst E lb.count pkts).1 := by
        simp only [rewriteBurst, rewriteL4Packet_l4 h]
      obtain ⟨hbk, hnext⟩ := ih lb.count
      have hcount : lb.count.nextBackend.toNat = (lb.nextBackend.toNat + 1) % nBackends :=
        advance_toNat lb.inRange
      rw [hstep, hnext, hcount, List.countP_cons_of_pos (by simpa using h), Nat.mod_add_mod]
      exact ⟨hbk, by congr 1; omega⟩
    · have hstep : (rewriteBurst E lb (m :: pkts)).1 = (rewriteBurst E lb pkts).1 := by
        simp only [rewriteBurst, rewriteL4Packet_other h]
      rw [hstep, List.countP_cons_of_neg (by simpa using h)]
      exact ih lb

/-! ### On the wire -/

/-- The destination address of a packet, byte by byte as it is on the wire. -/
def wireDst (m : Mbuf) : List U8 := [m.data 30, m.data 31, m.data 32, m.data 33]

/-- The destination port of a packet whose IPv4 header has 20 bytes. -/
def wireDstPort (m : Mbuf) : List U8 := [m.data 36, m.data 37]

/-- The bytes of a number on a little-endian host. -/
def hostBytes16 (v : U16) : List U8 := [v.extractLsb' 0 8, v.extractLsb' 8 8]

def hostBytes32 (v : U32) : List U8 :=
  hostBytes16 (v.extractLsb' 0 16) ++ hostBytes16 (v.extractLsb' 16 16)

theorem hostBytes16_load16 (d : Bytes) (o : ℕ) : hostBytes16 (load16 d o) = [d o, d (o + 1)] := by
  unfold hostBytes16 load16
  rw [BitVec.extractLsb'_append_eq_right, BitVec.extractLsb'_append_eq_left]

theorem hostBytes32_load32 (d : Bytes) (o : ℕ) :
    hostBytes32 (load32 d o) = [d o, d (o + 1), d (o + 2), d (o + 3)] := by
  unfold hostBytes32 load32
  rw [BitVec.extractLsb'_append_eq_right, BitVec.extractLsb'_append_eq_left, hostBytes16_load16,
    hostBytes16_load16]
  rfl

theorem wireDst_eq (m : Mbuf) : wireDst m = hostBytes32 m.dstAddr := (hostBytes32_load32 m.data 30).symm

theorem wireDstPort_eq (m : Mbuf) : wireDstPort m = hostBytes16 m.dstPort :=
  (hostBytes16_load16 m.data 36).symm

/-! ### Delivery -/

/-- The addresses of the backends, as the README has them. -/
def configured : Fin nBackends → List U8 :=
  ![[192, 168, 0, 101], [192, 168, 0, 102], [192, 168, 0, 103]]

theorem initLb_bytes : ∀ j, hostBytes32 (initLb.backends j).ip = (configured j).reverse ∧
    hostBytes16 (initLb.backends j).port = [0x27, 0x10] := by decide

theorem configured_ne_reverse : ∀ j, (configured j).reverse ≠ configured j := by decide

/-- The `k`-th TCP or UDP packet is offered to the transmit queue in its place, with the address
`addr (k % n_backends)` and the port 10000 as its destination. -/
def DeliversTo (E : Env) (addr : Fin nBackends → List U8) (bursts : List (List Mbuf)) : Prop :=
  ∀ pre m post, bursts.flatten = pre ++ m :: post → IsL4 m →
    ∃ m', (lcoreMain E initLb bursts).2.flatten[pre.length]? = some m' ∧
      wireDst m' = addr (Fin.ofNat nBackends (pre.countP IsL4)) ∧ wireDstPort m' = [0x27, 0x10]

/-- **Where the packets go**: to the addresses of the backends read backwards. -/
theorem sent_reversed (E : Env) (bursts : List (List Mbuf)) :
    DeliversTo E (fun j => (configured j).reverse) bursts := by
  intro pre m post hflat hm
  obtain ⟨hbk, hnext⟩ := rewriteBurst_selected E initLb pre
  set lb := (rewriteBurst E initLb pre).1 with hlb
  have hsel : lb.selected = Fin.ofNat nBackends (pre.countP IsL4) := by
    apply Fin.ext
    show lb.nextBackend.toNat = _
    rw [hnext, Fin.val_ofNat, show initLb.nextBackend.toNat = 0 from rfl, Nat.zero_add]
  have hheader := rewriteFor_header E (lb.backends lb.selected) hm.2
  refine ⟨rewriteFor E (lb.backends lb.selected) m, ?_, ?_, ?_⟩
  · rw [lcoreMain_flatten, hflat, rewriteBurst_getElem?, rewriteL4Packet_l4 hm]
  · rw [wireDst_eq, show Mbuf.dstAddr _ = _ from congrArg Header.dstAddr hheader, hbk, hsel]
    exact (initLb_bytes _).1
  · rw [wireDstPort_eq, show Mbuf.dstPort _ = _ from congrArg Header.dstPort hheader, hbk]
    exact (initLb_bytes lb.selected).2

/-- **Delivery.**  The TCP and UDP packets go to the configured backends if and only if there are none. -/
theorem delivered_iff (E : Env) (bursts : List (List Mbuf)) :
    DeliversTo E configured bursts ↔ ∀ m ∈ bursts.flatten, ¬ IsL4 m := by
  constructor
  · intro h m hmem hm
    obtain ⟨pre, post, hflat⟩ := List.append_of_mem hmem
    obtain ⟨m', hout, hdst, -⟩ := h pre m post hflat hm
    obtain ⟨m'', hout', hdst', -⟩ := sent_reversed E bursts pre m post hflat hm
    obtain rfl := Option.some.inj (hout.symm.trans hout')
    exact configured_ne_reverse _ (hdst'.symm.trans hdst)
  · intro h pre m post hflat hm
    exact absurd hm (h m (by rw [hflat]; simp))

/-- A TCP packet without payload. -/
def webFrame : Mbuf :=
  l4Frame ipprotoTcp (netAddr 10 0 0 1) (netAddr 10 0 0 2) (rteCpuToBe16 1000) (rteCpuToBe16 80)

theorem isL4_webFrame : IsL4 webFrame := by
  have h : webFrame.header = _ := l4Frame_header ..
  exact ⟨congrArg Header.etherType h, .inl (congrArg Header.proto h)⟩

/-- It leaves for 101.0.168.192. -/
theorem webFrame_misdelivered : ¬ ∀ bursts, DeliversTo ghz configured bursts := by
  intro h
  obtain ⟨m', hout, hdst, -⟩ := h [[webFrame]] [] webFrame [] rfl isL4_webFrame
  obtain ⟨m'', hout', hdst', -⟩ := sent_reversed ghz [[webFrame]] [] webFrame [] rfl isL4_webFrame
  obtain rfl := Option.some.inj (hout.symm.trans hout')
  exact configured_ne_reverse _ (hdst'.symm.trans hdst)

end DpdkBeginners.LoadBalancer
