import DpdkBeginners.Forwarding.Loops
import DpdkBeginners.Lib.Stdio

/-!
# The packets of `packet_change`

`operations` appends ten bytes to a packet, prepends ten, removes five at the front and four at the end.  When there is
no room to append it ends the program, so a packet that is long enough stops the receiver.
-/

namespace DpdkBeginners.PacketChange

open DpdkBeginners.Rte DpdkBeginners.Lib DpdkBeginners.Forwarding

/-- `"DPDK-MBUF"`, with its zero. -/
def msg : List U8 := ascii "DPDK-MBUF" ++ [0]

/-- `memset(hdr, 'H', 10)`. -/
def hdr : List U8 := List.replicate 10 72

/-- `operations`; `none` is `rte_exit`. -/
def operations (m : Pktmbuf) : Option Pktmbuf :=
  match m.append msg.length with
  | none => none
  | some p =>
    let p := p.write m.dataLen msg
    let p :=
      match p.prepend hdr.length with
      | none => p
      | some q => q.write 0 hdr
    some ((p.adj 5).trim 4)

variable {ι : Type*}

/-- An iteration of the main loop: the packets as they are freed, and the calls; `none` is `rte_exit`. -/
def iteration : List (ι × RxPktmbuf) → Option (List Pktmbuf × List (MbufOp ι))
  | [] => some ([], [])
  | (m, buf) :: bufs =>
    match operations buf.mbuf with
    | none => none
    | some pkt => (iteration bufs).map fun rest => (pkt :: rest.1, .free m :: rest.2)

/-! ### One packet -/

section Packet

variable {m : Pktmbuf}

/-- What is in front of a packet before five bytes are removed. -/
def front (m : Pktmbuf) : List U8 := if 10 ≤ m.dataOff then hdr else []

/-- **`operations`** ends the program when the packet is too long. -/
theorem operations_eq_none_iff (m : Pktmbuf) :
    operations m = none ↔ rteMbufDefaultBufSize < m.dataOff + m.dataLen + 10 := by
  rw [show m.dataOff + m.dataLen + 10 = m.dataOff + m.dataLen + msg.length from rfl, ← m.append_eq_none_iff]
  unfold operations
  cases m.append msg.length with
  | none => exact iff_of_true rfl rfl
  | some p => exact iff_of_false (by simp) (by simp)

theorem frame_adj_trim {p : Pktmbuf} (h : 9 ≤ p.dataLen) :
    ((p.adj 5).trim 4).frame = (p.frame.take (p.dataLen - 4)).drop 5 := by
  have hlen : (p.adj 5).dataLen = p.dataLen - 5 := (p.adj_spec (by omega)).2.2
  rw [Pktmbuf.frame_trim _ (by omega), p.frame_adj (by omega), hlen, List.drop_take]
  congr 1

theorem frame_front (p : Pktmbuf) :
    (match p.prepend hdr.length with
      | none => p
      | some q => q.write 0 hdr).frame = front p ++ p.frame := by
  unfold front
  cases hq : p.prepend hdr.length with
  | none =>
    have hoff : ¬ 10 ≤ p.dataOff := fun hle => by
      obtain ⟨q, hsome⟩ : ∃ q, p.prepend hdr.length = some q := p.prepend_of_le hle
      exact Option.some_ne_none q (hsome.symm.trans hq)
    rw [if_neg hoff]
    rfl
  | some q =>
    have hoff : 10 ≤ p.dataOff := by
      have hspec := (Pktmbuf.prepend_spec hq).2.1
      have hten : hdr.length = 10 := rfl
      omega
    rw [if_pos hoff]
    exact p.frame_prepend hq

/-- **The frame after `operations`.** -/
theorem frame_operations {r : Pktmbuf} (h : operations m = some r) :
    r.frame = (front m ++ m.frame ++ ascii "DPDK-M").drop 5 := by
  unfold operations at h
  cases happ : m.append msg.length with
  | none => simp [happ] at h
  | some p =>
    rw [happ] at h
    obtain rfl := Option.some.inj h
    have hoff : front (p.write m.dataLen msg) = front m := by
      unfold front
      rw [show (p.write m.dataLen msg).dataOff = p.dataOff from rfl, (Pktmbuf.append_spec happ).2.1]
    have hframe := frame_front (p.write m.dataLen msg)
    rw [hoff, m.frame_append happ, ← List.append_assoc] at hframe
    generalize (match (p.write m.dataLen msg).prepend hdr.length with
      | none => p.write m.dataLen msg
      | some q => q.write 0 hdr) = q at hframe
    have hmsg : msg = ascii "DPDK-M" ++ ascii "BUF" ++ [0] := rfl
    rw [hmsg, List.append_assoc (ascii "DPDK-M"), ← List.append_assoc] at hframe
    have hlen : q.dataLen = (front m ++ m.frame ++ ascii "DPDK-M").length + 4 := by
      rw [← q.length_frame, hframe, List.length_append]
      rfl
    have hnine : 9 ≤ q.dataLen := by
      rw [hlen, List.length_append, show (ascii "DPDK-M").length = 6 from rfl]
      omega
    rw [frame_adj_trim hnine, hframe, hlen, Nat.add_sub_cancel, List.take_left]

end Packet

/-! ### The main loop -/

/-- The packets that a driver delivers are too long for `operations` from 2039 bytes on. -/
theorem operations_rx (buf : RxPktmbuf) :
    (operations buf.mbuf = none ↔ 2038 < buf.mbuf.dataLen) ∧
      ∀ r, operations buf.mbuf = some r → r.frame = List.replicate 5 72 ++ buf.mbuf.frame ++ ascii "DPDK-M" := by
  have hroom := buf.headroom
  refine ⟨?_, fun r hr => ?_⟩
  · rw [operations_eq_none_iff, hroom]
    unfold rteMbufDefaultBufSize
    omega
  · have hfront : front buf.mbuf = hdr := if_pos (by omega)
    rw [frame_operations hr, hfront]
    rfl

/-- **The main loop** frees each packet of a burst, changed; a packet of more than 2038 bytes ends the program. -/
theorem iteration_spec (bufs : List (ι × RxPktmbuf)) :
    (iteration bufs = none ↔ ∃ x ∈ bufs, 2038 < x.2.mbuf.dataLen) ∧
      ∀ pkts ops, iteration bufs = some (pkts, ops) → ops = (bufs.map Prod.fst).map .free ∧
        pkts.map Pktmbuf.frame =
          bufs.map fun x => List.replicate 5 72 ++ x.2.mbuf.frame ++ ascii "DPDK-M" := by
  induction bufs with
  | nil =>
    refine ⟨by simp [iteration], ?_⟩
    rintro pkts ops h
    obtain ⟨rfl, rfl⟩ := Prod.mk.inj (Option.some.inj h)
    exact ⟨rfl, rfl⟩
  | cons x bufs ih =>
    obtain ⟨m, buf⟩ := x
    obtain ⟨hnone, hsome⟩ := operations_rx buf
    obtain ⟨ihnone, ihsome⟩ := ih
    unfold iteration
    cases hop : operations buf.mbuf with
    | none =>
      refine ⟨iff_of_true rfl ⟨_, List.mem_cons_self .., hnone.1 hop⟩, ?_⟩
      intro pkts ops h
      cases h
    | some pkt =>
      have hshort : ¬ 2038 < buf.mbuf.dataLen := fun hlong => by
        rw [hnone.2 hlong] at hop
        cases hop
      refine ⟨?_, ?_⟩
      · simp only [Option.map_eq_none_iff, ihnone, List.exists_mem_cons_iff]
        exact (or_iff_right hshort).symm
      · intro pkts ops h
        obtain ⟨rest, hrest, heq⟩ := Option.map_eq_some_iff.1 h
        obtain ⟨rfl, rfl⟩ := Prod.mk.inj heq
        obtain ⟨hops, hframes⟩ := ihsome rest.1 rest.2 hrest
        exact ⟨congrArg _ hops, congrArg₂ List.cons (hsome pkt hop) hframes⟩

end DpdkBeginners.PacketChange
