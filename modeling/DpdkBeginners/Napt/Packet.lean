import DpdkBeginners.Napt.Defs

/-!
# What one call of `nat_process_packet` does

* `parse_eq_some`: `parse` accepts IPv4 packets of TCP and UDP, and stores the 5-tuple it finds.
* `rewriteOut_header`, `rewriteIn_header`: the two rewrites set one address and one port.
* `natProcessPacket_cases`: a call drops the packet, hits an entry in one of the two tables, or opens
  a new entry.  Every later proof about packets starts from these cases.
-/

namespace DpdkBeginners.Napt

open DpdkBeginners.Rte DpdkBeginners.Lib

variable {E : Env} {now : ℕ} {o : Outcome} {s : NatState} {m : Mbuf} {k : NatKey} {p : Ptr}
  {e : NatEntry} {r : Result}

/-! ### Parsing -/

/-- The 5-tuple of a packet. -/
def keyOf (m : Mbuf) : NatKey := ⟨m.srcAddr, m.dstAddr, m.srcPort, m.dstPort, m.nextProtoId⟩

/-- The protocols that `parse` accepts. -/
def IsTcpUdp (proto : U8) : Prop := proto = ipprotoTcp ∨ proto = ipprotoUdp

theorem parse_eq_some : parse m = some k ↔ m.IsIpv4 ∧ IsTcpUdp m.nextProtoId ∧ k = keyOf m := by
  unfold parse IsTcpUdp
  by_cases h₁ : m.IsIpv4
  · rw [if_neg (not_not.2 h₁)]
    by_cases h₂ : m.nextProtoId = ipprotoTcp
    · rw [if_pos h₂, Option.some.injEq]
      exact ⟨fun h => ⟨h₁, Or.inl h₂, h.symm⟩, fun h => h.2.2.symm⟩
    · rw [if_neg h₂]
      by_cases h₃ : m.nextProtoId = ipprotoUdp
      · rw [if_pos h₃, Option.some.injEq]
        exact ⟨fun h => ⟨h₁, Or.inr h₃, h.symm⟩, fun h => h.2.2.symm⟩
      · simp [h₂, h₃]
  · simp [h₁]

theorem parse_dstIp (h : parse m = some k) : k.dstIp = m.dstAddr := by
  rw [(parse_eq_some.1 h).2.2]
  rfl

theorem parse_proto (h : parse m = some k) : IsTcpUdp k.proto := by
  obtain ⟨-, hp, rfl⟩ := parse_eq_some.1 h
  exact hp

/-- A packet with the 5-tuple `k`. -/
def keyFrame (k : NatKey) : Mbuf := l4Frame k.proto k.srcIp k.dstIp k.srcPort k.dstPort

theorem parse_keyFrame (h : IsTcpUdp k.proto) : parse (keyFrame k) = some k := by
  have hh : (keyFrame k).header =
      ⟨rteCpuToBe16 rteEtherTypeIpv4, k.proto, k.srcIp, k.dstIp, k.srcPort, k.dstPort⟩ :=
    l4Frame_header ..
  have hproto : (keyFrame k).nextProtoId = k.proto := congrArg Header.proto hh
  refine parse_eq_some.2 ⟨congrArg Header.etherType hh, hproto ▸ h, ?_⟩
  unfold keyOf
  rw [hproto, show (keyFrame k).srcAddr = k.srcIp from congrArg Header.srcAddr hh,
    show (keyFrame k).dstAddr = k.dstIp from congrArg Header.dstAddr hh,
    show (keyFrame k).srcPort = k.srcPort from congrArg Header.srcPort hh,
    show (keyFrame k).dstPort = k.dstPort from congrArg Header.dstPort hh]

/-! ### Rewriting -/

/-- **`rewrite_out`** sets the source address and the source port. -/
theorem rewriteOut_header (E : Env) (m : Mbuf) (e : NatEntry) :
    (rewriteOut E m e).header =
      { m.header with srcAddr := e.publicIp, srcPort := e.publicPort } := by
  unfold rewriteOut
  split_ifs <;> simp

/-- **`rewrite_in`** sets the destination address and the destination port. -/
theorem rewriteIn_header (E : Env) (m : Mbuf) (e : NatEntry) :
    (rewriteIn E m e).header =
      { m.header with dstAddr := e.privateIp, dstPort := e.privatePort } := by
  unfold rewriteIn
  split_ifs <;> simp

theorem rewriteOut_srcAddr (E : Env) (m : Mbuf) (e : NatEntry) :
    (rewriteOut E m e).srcAddr = e.publicIp :=
  congrArg Header.srcAddr (rewriteOut_header E m e)

theorem rewriteOut_srcPort (E : Env) (m : Mbuf) (e : NatEntry) :
    (rewriteOut E m e).srcPort = e.publicPort :=
  congrArg Header.srcPort (rewriteOut_header E m e)

/-! ### Creating an entry -/

/-- The entry of the flow `k` with the given public address and port. -/
def flowEntry (publicIp : U32) (publicPort : U16) (k : NatKey) : NatEntry :=
  newEntry publicIp publicPort k.srcIp k.srcPort k.dstIp k.dstPort k.proto

/-- The key of the replies to the flow `k`, which they carry from its remote endpoint to its public
one. -/
def replyKey (publicIp : U32) (publicPort : U16) (k : NatKey) : NatKey :=
  ⟨k.dstIp, publicIp, k.dstPort, publicPort, k.proto⟩

/-- The entry that `create_entry` makes for the flow `k` in the state `s`. -/
def freshEntry (s : NatState) (k : NatKey) : NatEntry :=
  flowEntry s.publicIp (rteCpuToBe16 (nextPort s.currentPort)) k

/-- The state that `create_entry` leaves behind with the new entry at `p`. -/
def created (E : Env) (now : ℕ) (o : Outcome) (s : NatState) (k : NatKey) (p : Ptr) : NatState where
  publicIp := s.publicIp
  currentPort := nextPort s.currentPort
  heap := Function.update s.heap p (some (freshEntry s k))
  timers := rteTimerReset s.timers p (now + (timeout E).toNat)
  fwdHash := rteHashAddKeyData o.addFwd s.fwdHash k p
  revHash := rteHashAddKeyData o.addRev s.revHash (freshEntry s k).revKey p

/-- **`create_entry`**, when `rte_malloc` returns `p`. -/
theorem createEntry_some (h : o.malloc = some p) :
    createEntry E now o s k.srcIp k.srcPort k.dstIp k.dstPort k.proto =
      (created E now o s k p, some p) := by
  unfold createEntry
  rw [h]
  rfl

/-- **`create_entry`**, when `rte_malloc` fails: nothing has happened yet. -/
theorem createEntry_none (h : o.malloc = none) :
    createEntry E now o s k.srcIp k.srcPort k.dstIp k.dstPort k.proto = (s, none) := by
  unfold createEntry
  rw [h]

/-! ### The cases of a call -/

theorem natProcessPacket_ignored (hk : parse m = none) :
    natProcessPacket E now o s m = some ⟨-1, m, s⟩ := by
  simp [natProcessPacket, hk]

theorem natProcessPacket_unmatched (hk : parse m = some k) (hd : k.dstIp = s.publicIp)
    (hp : s.revHash k = none) : natProcessPacket E now o s m = some ⟨-1, m, s⟩ := by
  simp [natProcessPacket, hk, hd, hp]

theorem natProcessPacket_inbound (hk : parse m = some k) (hd : k.dstIp = s.publicIp)
    (hp : s.revHash k = some p) (he : s.heap p = some e) :
    natProcessPacket E now o s m = some ⟨0, rewriteIn E m e, refresh E now s p⟩ := by
  simp [natProcessPacket, hk, hd, hp, he]

theorem natProcessPacket_outbound (hk : parse m = some k) (hd : k.dstIp ≠ s.publicIp)
    (hp : s.fwdHash k = some p) (he : s.heap p = some e) :
    natProcessPacket E now o s m = some ⟨0, rewriteOut E m e, refresh E now s p⟩ := by
  simp [natProcessPacket, hk, hd, hp, he]

theorem natProcessPacket_noMemory (hk : parse m = some k) (hd : k.dstIp ≠ s.publicIp)
    (hp : s.fwdHash k = none) (hm : o.malloc = none) :
    natProcessPacket E now o s m = some ⟨-1, m, s⟩ := by
  simp only [natProcessPacket, hk, if_neg hd, hp, createEntry_none hm]

theorem natProcessPacket_opened (hk : parse m = some k) (hd : k.dstIp ≠ s.publicIp)
    (hp : s.fwdHash k = none) (hm : o.malloc = some p) :
    natProcessPacket E now o s m =
      some ⟨0, rewriteOut E m (freshEntry s k), created E now o s k p⟩ := by
  have he : (created E now o s k p).heap p = some (freshEntry s k) := by simp [created]
  simp only [natProcessPacket, hk, if_neg hd, hp, createEntry_some hm, he]

/-- The ways a call of `nat_process_packet` can end. -/
inductive Processed (E : Env) (now : ℕ) (o : Outcome) (s : NatState) (m : Mbuf) : Result → Prop
  /-- Not a TCP or UDP packet. -/
  | ignored : parse m = none → Processed E now o s m ⟨-1, m, s⟩
  /-- An inbound packet that matches no entry. -/
  | unmatched {k : NatKey} : parse m = some k → k.dstIp = s.publicIp → s.revHash k = none →
      Processed E now o s m ⟨-1, m, s⟩
  /-- An inbound packet of the entry at `p`. -/
  | inbound {k : NatKey} {p : Ptr} {e : NatEntry} : parse m = some k → k.dstIp = s.publicIp →
      s.revHash k = some p → s.heap p = some e →
      Processed E now o s m ⟨0, rewriteIn E m e, refresh E now s p⟩
  /-- An outbound packet of the entry at `p`. -/
  | outbound {k : NatKey} {p : Ptr} {e : NatEntry} : parse m = some k → k.dstIp ≠ s.publicIp →
      s.fwdHash k = some p → s.heap p = some e →
      Processed E now o s m ⟨0, rewriteOut E m e, refresh E now s p⟩
  /-- An outbound packet of a flow without an entry, when there is no memory. -/
  | noMemory {k : NatKey} : parse m = some k → k.dstIp ≠ s.publicIp → s.fwdHash k = none →
      o.malloc = none → Processed E now o s m ⟨-1, m, s⟩
  /-- An outbound packet of a flow without an entry, which opens one at `p`. -/
  | opened {k : NatKey} {p : Ptr} : parse m = some k → k.dstIp ≠ s.publicIp → s.fwdHash k = none →
      o.malloc = some p →
      Processed E now o s m ⟨0, rewriteOut E m (freshEntry s k), created E now o s k p⟩

/-- **The cases of a call.** -/
theorem natProcessPacket_cases (h : natProcessPacket E now o s m = some r) :
    Processed E now o s m r := by
  cases hk : parse m with
  | none =>
    obtain rfl := Option.some.inj (h.symm.trans (natProcessPacket_ignored hk))
    exact .ignored hk
  | some k =>
    by_cases hd : k.dstIp = s.publicIp
    · cases hp : s.revHash k with
      | none =>
        obtain rfl := Option.some.inj (h.symm.trans (natProcessPacket_unmatched hk hd hp))
        exact .unmatched hk hd hp
      | some p =>
        cases he : s.heap p with
        | none => simp [natProcessPacket, hk, hd, hp, he] at h
        | some e =>
          obtain rfl := Option.some.inj (h.symm.trans (natProcessPacket_inbound hk hd hp he))
          exact .inbound hk hd hp he
    · cases hp : s.fwdHash k with
      | none =>
        cases hm : o.malloc with
        | none =>
          obtain rfl := Option.some.inj (h.symm.trans (natProcessPacket_noMemory hk hd hp hm))
          exact .noMemory hk hd hp hm
        | some p =>
          obtain rfl := Option.some.inj (h.symm.trans (natProcessPacket_opened hk hd hp hm))
          exact .opened hk hd hp hm
      | some p =>
        cases he : s.heap p with
        | none => simp [natProcessPacket, hk, hd, hp, he] at h
        | some e =>
          obtain rfl := Option.some.inj (h.symm.trans (natProcessPacket_outbound hk hd hp he))
          exact .outbound hk hd hp he

end DpdkBeginners.Napt
