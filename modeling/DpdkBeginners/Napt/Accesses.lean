import DpdkBeginners.Napt.Checksum
import DpdkBeginners.Rte.Access

/-!
# The bytes that a packet is accessed at

`nat_process_packet` looks at no length, so on a frame that is too short for its headers it reads and writes
what an earlier packet left behind in the buffer.  Here its functions are programs over the bytes of the
buffer, which compute what those of `Napt.Defs` do (`run_natProcessPacketProg`).

* `contained_iff`: for which lengths a call accesses bytes of the frame only, and a frame that is too short has
  no effect.
* `Contained.leftovers`: what is left behind in the buffer makes no difference then.
-/

namespace DpdkBeginners.Napt

open DpdkBeginners.Rte DpdkBeginners.Lib

variable {E : Env} {now n : ℕ} {o : Outcome} {s : NatState} {m : Mbuf} {k : NatKey} {p : Ptr} {e : NatEntry}
  {evs : List Event} {ip : U32} {d : Bytes} {addr port : ℕ} {newIp : U32} {newPort : U16} {proto : U8}

/-! ### The functions as programs -/

/-- `parse` -/
def parseProg : ByteProg (Option NatKey) := do
  let etherType ← loadWord 12
  if etherType ≠ rteCpuToBe16 rteEtherTypeIpv4 then pure none
  else do
    let sip ← loadLong 26
    let dip ← loadLong 30
    let proto ← loadByte 23
    if proto = ipprotoTcp then do
      let sport ← loadWord 34
      let dport ← loadWord 36
      pure (some ⟨sip, dip, sport, dport, proto⟩)
    else if proto = ipprotoUdp then do
      let sport ← loadWord 34
      let dport ← loadWord 36
      pure (some ⟨sip, dip, sport, dport, proto⟩)
    else pure none

/-- The port and the checksum of a TCP or UDP header. -/
def rewriteL4Prog (port : ℕ) (newPort : U16) (proto : U8) : ByteProg Unit :=
  if proto = ipprotoTcp then do
    storeWord port newPort
    let cksum ← ipv4UdptcpCksumProg ipOff l4Off
    storeWord 50 cksum
  else do
    storeWord port newPort
    let cksum ← ipv4UdptcpCksumProg ipOff l4Off
    storeWord 40 cksum

/-- The two rewrites, by the offsets of the address and of the port. -/
def rewriteProg (addr port : ℕ) (newIp : U32) (newPort : U16) (proto : U8) : ByteProg Unit := do
  storeLong addr newIp
  rewriteL4Prog port newPort proto
  let cksum ← ipv4CksumProg ipOff
  storeWord 24 cksum

/-- `rewrite_out` -/
def rewriteOutProg (e : NatEntry) : ByteProg Unit := rewriteProg 26 34 e.publicIp e.publicPort e.proto

/-- `rewrite_in` -/
def rewriteInProg (e : NatEntry) : ByteProg Unit := rewriteProg 30 36 e.privateIp e.privatePort e.proto

/-- `nat_process_packet` after `parse`: the return value and the state. -/
def translateProg (E : Env) (now : ℕ) (o : Outcome) (s : NatState) :
    Option NatKey → ByteProg (Option (Int × NatState))
  | none => pure (some (-1, s))
  | some k =>
    if k.dstIp = s.publicIp then
      match rteHashLookupData s.revHash k with
      | none => pure (some (-1, s))
      | some p =>
        match s.heap p with
        | none => pure none
        | some e => do
          rewriteInProg e
          pure (some (0, refresh E now s p))
    else
      match rteHashLookupData s.fwdHash k with
      | none =>
        match createEntry E now o s k.srcIp k.srcPort k.dstIp k.dstPort k.proto with
        | (s', none) => pure (some (-1, s'))
        | (s', some p) =>
          match s'.heap p with
          | none => pure none
          | some e => do
            rewriteOutProg e
            pure (some (0, s'))
      | some p =>
        match s.heap p with
        | none => pure none
        | some e => do
          rewriteOutProg e
          pure (some (0, refresh E now s p))

/-- `nat_process_packet` -/
def natProcessPacketProg (E : Env) (now : ℕ) (o : Outcome) (s : NatState) :
    ByteProg (Option (Int × NatState)) := do
  let k ← parseProg
  translateProg E now o s k

/-! ### They compute what they should -/

theorem run_parseProg (m : Mbuf) : parseProg.run m.data = (parse m, m.data) := by
  simp only [parseProg, Prog.run_bind, run_loadWord, run_loadLong, run_loadByte, Prog.run_ite, Prog.run_pure]
  unfold parse
  split_ifs <;> first | rfl | contradiction

theorem run_rewriteProg (timerHz : U64) :
    (rewriteProg addr port newIp newPort proto).run m.data =
      ((), (fillChecksums (rteDocumented timerHz)
        { m with data := store16 (store32 m.data addr newIp) port newPort } proto).data) := by
  simp only [rewriteProg, rewriteL4Prog, Prog.run_bind, run_storeLong, run_storeWord, Prog.run_ite,
    run_ipv4UdptcpCksumProg timerHz, run_ipv4CksumProg timerHz, fillChecksums]
  split_ifs <;> rfl

theorem run_rewriteOutProg (timerHz : U64) (m : Mbuf) (e : NatEntry) :
    (rewriteOutProg e).run m.data = ((), (rewriteOut (rteDocumented timerHz) m e).data) :=
  run_rewriteProg timerHz

theorem run_rewriteInProg (timerHz : U64) (m : Mbuf) (e : NatEntry) :
    (rewriteInProg e).run m.data = ((), (rewriteIn (rteDocumented timerHz) m e).data) :=
  run_rewriteProg timerHz

theorem fillChecksums_withData (E : Env) (m : Mbuf) (proto : U8) :
    (⟨(fillChecksums E m proto).data, m.dataLen⟩ : Mbuf) = fillChecksums E m proto := by
  unfold fillChecksums
  split_ifs <;> rfl

theorem rewriteOut_withData (E : Env) (m : Mbuf) (e : NatEntry) :
    (⟨(rewriteOut E m e).data, m.dataLen⟩ : Mbuf) = rewriteOut E m e :=
  fillChecksums_withData E ((m.setSrcAddr e.publicIp).setSrcPort e.publicPort) e.proto

theorem rewriteIn_withData (E : Env) (m : Mbuf) (e : NatEntry) :
    (⟨(rewriteIn E m e).data, m.dataLen⟩ : Mbuf) = rewriteIn E m e :=
  fillChecksums_withData E ((m.setDstAddr e.privateIp).setDstPort e.privatePort) e.proto

/-- **The program of `nat_process_packet`** returns and leaves behind what `nat_process_packet` does. -/
theorem run_natProcessPacketProg (timerHz : U64) (now : ℕ) (o : Outcome) (s : NatState) (m : Mbuf) :
    natProcessPacket (rteDocumented timerHz) now o s m =
      (((natProcessPacketProg (rteDocumented timerHz) now o s).run m.data).1.map fun x =>
        ⟨x.1, { m with
          data := ((natProcessPacketProg (rteDocumented timerHz) now o s).run m.data).2 }, x.2⟩) := by
  unfold natProcessPacketProg natProcessPacket
  rw [Prog.run_bind, run_parseProg]
  cases parse m with
  | none => rfl
  | some k =>
    unfold translateProg
    by_cases hd : k.dstIp = s.publicIp
    · cases hp : s.revHash k with
      | none => simp [hd, hp]
      | some p =>
        cases he : s.heap p with
        | none => simp [hd, hp, he]
        | some e =>
          simp [hd, hp, he, run_rewriteInProg timerHz, rewriteIn_withData]
    · cases hp : s.fwdHash k with
      | none =>
        rcases hc : createEntry (rteDocumented timerHz) now o s k.srcIp k.srcPort k.dstIp k.dstPort
          k.proto with ⟨s', _ | p⟩
        · simp [hd, hp, hc]
        · cases he : s'.heap p with
          | none => simp [hd, hp, hc, he]
          | some e =>
            simp [hd, hp, hc, he, run_rewriteOutProg timerHz, rewriteOut_withData]
      | some p =>
        cases he : s.heap p with
        | none => simp [hd, hp, he]
        | some e =>
          simp [hd, hp, he, run_rewriteOutProg timerHz, rewriteOut_withData]

/-! ### The bytes of the frame that they need -/

theorem below_parseProg :
    Below n parseProg m.data ↔
      14 ≤ n ∧ (m.IsIpv4 → 34 ≤ n ∧ (IsTcpUdp m.nextProtoId → 38 ≤ n)) := by
  simp only [parseProg, Prog.within_bind, run_loadWord, run_loadLong, run_loadByte, Prog.within_ite,
    Prog.within_pure, below_loadWord, below_loadLong, below_loadByte, and_true]
  change _ ↔ 14 ≤ n ∧ (load16 m.data 12 = rteCpuToBe16 rteEtherTypeIpv4 → 34 ≤ n ∧
    (m.data 23 = ipprotoTcp ∨ m.data 23 = ipprotoUdp → 38 ≤ n))
  split_ifs with h₁ h₂ h₃
  · simp [h₁]
  · rw [imp_iff_right (not_not.1 h₁), imp_iff_right (.inl h₂)]
    omega
  · rw [imp_iff_right (not_not.1 h₁), imp_iff_right (.inr h₃)]
    omega
  · have hnot : ¬ (m.data 23 = ipprotoTcp ∨ m.data 23 = ipprotoUdp) := not_or.2 ⟨h₂, h₃⟩
    rw [imp_iff_right (not_not.1 h₁), and_iff_left fun h => absurd h hnot, and_true]
    omega

/-- Where the checksum of the TCP or UDP header is. -/
def l4CksumOff (proto : U8) : ℕ := if proto = ipprotoTcp then 50 else 40

theorem l4CksumOff_cases (proto : U8) : l4CksumOff proto = 50 ∨ l4CksumOff proto = 40 := by
  unfold l4CksumOff
  split_ifs
  · exact .inl rfl
  · exact .inr rfl

theorem run_rewriteL4Prog_apply (hport : 24 ≤ port) {i : ℕ} (hi : i < 24) :
    ((rewriteL4Prog port newPort proto).run d).2 i = d i := by
  unfold rewriteL4Prog
  simp only [Prog.run_ite, Prog.run_bind, run_storeWord, run_ipv4UdptcpCksumProg 0]
  split_ifs
  · show store16 (store16 d port newPort) 50 _ i = d i
    rw [store16_apply _ (by omega), store16_apply _ (by omega)]
  · show store16 (store16 d port newPort) 40 _ i = d i
    rw [store16_apply _ (by omega), store16_apply _ (by omega)]

theorem below_rewriteL4Prog (hport : port = 34 ∨ port = 36) :
    Below n (rewriteL4Prog port newPort proto) d ↔
      l4CksumOff proto + 2 ≤ n ∧ (l4Len d ipOff = 0 ∨ l4Off + l4Len d ipOff ≤ n) := by
  have hkept : ∀ i < 24, store16 d port newPort i = d i := fun i hi => store16_apply _ (by omega)
  have hfirst : ∀ i, ipOff ≤ i → i < ipOff + 4 → store16 d port newPort i = d i :=
    fun i _ hi => hkept i (by change i < 14 + 4 at hi; omega)
  have hck := l4CksumOff_cases proto
  have hiff : Below n (rewriteL4Prog port newPort proto) d ↔ port + 2 ≤ n ∧
      Below n (ipv4UdptcpCksumProg ipOff l4Off) (store16 d port newPort) ∧ l4CksumOff proto + 2 ≤ n := by
    unfold rewriteL4Prog l4CksumOff
    split_ifs <;> simp [run_ipv4UdptcpCksumProg 0]
  rw [hiff, below_ipv4UdptcpCksumProg, l4Len_congr hfirst, hdrLen_congr (hkept 14 (by omega)),
    totalLength_congr hfirst]
  have hzero : ¬ hdrLen d ipOff ≤ totalLength d ipOff → l4Len d ipOff = 0 := by
    unfold l4Len
    omega
  show _ ∧ (14 + 4 ≤ n ∧ (_ → 14 + 20 ≤ n ∧ (_ ∨ 34 + _ ≤ n))) ∧ _ ↔ _ ∧ (_ ∨ 34 + _ ≤ n)
  by_cases hle : hdrLen d ipOff ≤ totalLength d ipOff
  · rw [imp_iff_right hle]
    omega
  · simp only [hle, hzero hle, false_imp_iff, true_or, and_true]
    omega

/-- A rewrite needs the IPv4 header, the TCP or UDP header up to its checksum, and the message that the
checksum covers. -/
theorem below_rewriteProg (haddr : addr = 26 ∨ addr = 30) (hport : port = 34 ∨ port = 36) :
    Below n (rewriteProg addr port newIp newPort proto) d ↔
      l4CksumOff proto + 2 ≤ n ∧ ipOff + hdrLen d ipOff ≤ n ∧ l4Off + l4Len d ipOff ≤ n := by
  have hset : ∀ i < 24, store32 d addr newIp i = d i := fun i hi => store32_apply _ (by omega)
  have hkept : ∀ i < 24, ((rewriteL4Prog port newPort proto).run (store32 d addr newIp)).2 i = d i :=
    fun i hi => (run_rewriteL4Prog_apply (by omega) hi).trans (hset i hi)
  have hhdr : hdrLen ((rewriteL4Prog port newPort proto).run (store32 d addr newIp)).2 ipOff =
      hdrLen d ipOff := hdrLen_congr (hkept 14 (by omega))
  have hck := l4CksumOff_cases proto
  have hlen : l4Len (store32 d addr newIp) ipOff = l4Len d ipOff :=
    l4Len_congr fun i _ hi => hset i (by change i < 14 + 4 at hi; omega)
  simp only [rewriteProg, Prog.within_bind, run_storeLong, below_storeLong,
    below_rewriteL4Prog hport, below_ipv4CksumProg, below_storeWord, hhdr, hlen]
  show _ ∧ (_ ∧ (_ ∨ 34 + _ ≤ n)) ∧ (14 + 1 ≤ n ∧ 14 + _ ≤ n) ∧ 24 + 2 ≤ n ↔ _ ∧ 14 + _ ≤ n ∧ 34 + _ ≤ n
  omega

/-! ### Frames that are long enough -/

/-- Where the headers of a packet end, as it announces them itself. -/
def announced (m : Mbuf) : ℕ :=
  if ¬ m.IsIpv4 then ipOff
  else ipOff + max 20 (hdrLen m.data ipOff) +
    (if m.nextProtoId = ipprotoTcp then 20 else if m.nextProtoId = ipprotoUdp then 8 else 0)

/-- The frame cannot hold the headers that it announces. -/
def TooShort (m : Mbuf) : Prop := m.dataLen < announced m

/-- The packet is translated and sent on. -/
def Forwards (o : Outcome) (s : NatState) (k : NatKey) : Prop :=
  if k.dstIp = s.publicIp then s.revHash k ≠ none else s.fwdHash k ≠ none ∨ o.malloc ≠ none

/-- The call accesses bytes of the frame only, and if the frame is too short the packet is dropped and nothing
has changed. -/
structure Contained (E : Env) (now : ℕ) (o : Outcome) (s : NatState) (m : Mbuf) : Prop where
  inFrame : Below m.dataLen (natProcessPacketProg E now o s) m.data
  dropped : TooShort m → ∃ r, natProcessPacket E now o s m = some r ∧ r.ret = -1 ∧ r.state = s

/-- The bytes that the call accesses are there: the headers as far as they are looked at and, if the packet is
sent on, all of them and the message. -/
def LongEnough (o : Outcome) (s : NatState) (m : Mbuf) : Prop :=
  14 ≤ m.dataLen ∧ (m.IsIpv4 → 34 ≤ m.dataLen ∧ (IsTcpUdp m.nextProtoId → 38 ≤ m.dataLen ∧
    (Forwards o s (keyOf m) → announced m ≤ m.dataLen ∧ l4Off + l4Len m.data ipOff ≤ m.dataLen)))

/-! ### What a call accesses -/

/-- A packet that `parse` accepts is dropped, or rewritten for an entry of its own protocol. -/
theorem translateProg_cases (h : Run (Step E) (natInit ip) evs s) (hk : parse m = some k) :
    (¬ Forwards o s k ∧ translateProg E now o s (some k) = pure (some (-1, s))) ∨
      (Forwards o s k ∧ ∃ addr port newIp newPort t, (addr = 26 ∨ addr = 30) ∧ (port = 34 ∨ port = 36) ∧
        translateProg E now o s (some k) = (do
          rewriteProg addr port newIp newPort m.nextProtoId
          pure (some (0, t)))) := by
  unfold Forwards translateProg
  by_cases hd : k.dstIp = s.publicIp
  · cases hp : s.revHash k with
    | none => simp [hd, hp]
    | some p =>
      obtain ⟨e, he, hrev⟩ := (run_noDangling h).rev k p hp
      refine .inr ⟨by simp [hd], 30, 36, e.privateIp, e.privatePort, refresh E now s p,
        .inr rfl, .inr rfl, ?_⟩
      simp [hd, hp, he, rewriteInProg, proto_of_key h hk he (.inr hrev)]
  · cases hp : s.fwdHash k with
    | none =>
      cases hm : o.malloc with
      | none => simp [hd, hp, createEntry_none hm]
      | some p =>
        set e := freshEntry s k with hfresh
        have he : (created E now o s k p).heap p = some e := by simp [created, hfresh]
        have hproto : e.proto = m.nextProtoId := by
          obtain ⟨-, -, rfl⟩ := parse_eq_some.1 hk
          rfl
        refine .inr ⟨by simp [hd], 26, 34, e.publicIp, e.publicPort, created E now o s k p,
          .inl rfl, .inl rfl, ?_⟩
        simp [hd, hp, createEntry_some hm, he, rewriteOutProg, hproto]
    | some p =>
      obtain ⟨e, he, hfwd⟩ := (run_noDangling h).fwd k p hp
      refine .inr ⟨by simp [hd], 26, 34, e.publicIp, e.publicPort, refresh E now s p,
        .inl rfl, .inl rfl, ?_⟩
      simp [hd, hp, he, rewriteOutProg, proto_of_key h hk he (.inl hfwd)]

theorem contained_of_dropped {timerHz : U64}
    (htr : translateProg (rteDocumented timerHz) now o s (parse m) = pure (some (-1, s))) :
    Contained (rteDocumented timerHz) now o s m ↔ Below m.dataLen parseProg m.data := by
  have hbelow : Below m.dataLen (natProcessPacketProg (rteDocumented timerHz) now o s) m.data ↔
      Below m.dataLen parseProg m.data := by
    simp [natProcessPacketProg, run_parseProg, htr]
  have hret : natProcessPacket (rteDocumented timerHz) now o s m = some ⟨-1, m, s⟩ := by
    rw [run_natProcessPacketProg]
    simp [natProcessPacketProg, run_parseProg, htr]
  exact ⟨fun hc => hbelow.1 hc.inFrame, fun hb => ⟨hbelow.2 hb, fun _ => ⟨_, hret, rfl, rfl⟩⟩⟩

theorem contained_of_sent {timerHz : U64} {t : NatState}
    (htr : translateProg (rteDocumented timerHz) now o s (parse m) = (do
      rewriteProg addr port newIp newPort m.nextProtoId
      pure (some (0, t)))) :
    Contained (rteDocumented timerHz) now o s m ↔
      Below m.dataLen parseProg m.data ∧
        Below m.dataLen (rewriteProg addr port newIp newPort m.nextProtoId) m.data ∧ ¬ TooShort m := by
  have hbelow : Below m.dataLen (natProcessPacketProg (rteDocumented timerHz) now o s) m.data ↔
      Below m.dataLen parseProg m.data ∧
        Below m.dataLen (rewriteProg addr port newIp newPort m.nextProtoId) m.data := by
    simp [natProcessPacketProg, run_parseProg, htr]
  have hret : ∀ r, natProcessPacket (rteDocumented timerHz) now o s m = some r → r.ret = 0 := by
    intro r hr
    rw [run_natProcessPacketProg] at hr
    simp [natProcessPacketProg, run_parseProg, htr] at hr
    rw [← hr]
  constructor
  · intro hc
    obtain ⟨hparse, hrewrite⟩ := hbelow.1 hc.inFrame
    refine ⟨hparse, hrewrite, fun hshort => ?_⟩
    obtain ⟨r, hr, hneg, -⟩ := hc.dropped hshort
    rw [hret r hr] at hneg
    exact absurd hneg (by decide)
  · rintro ⟨hparse, hrewrite, hlong⟩
    exact ⟨hbelow.2 ⟨hparse, hrewrite⟩, fun hshort => absurd hshort hlong⟩

/-- **Truncated frames.**  In every state that a run reaches, a call of `nat_process_packet` accesses bytes of
the frame only, and drops a frame that is too short without any effect, if and only if the frame is long
enough. -/
theorem contained_iff {timerHz : U64} (h : Run (Step (rteDocumented timerHz)) (natInit ip) evs s)
    (now : ℕ) (o : Outcome) (m : Mbuf) :
    Contained (rteDocumented timerHz) now o s m ↔ LongEnough o s m := by
  unfold LongEnough
  cases hk : parse m with
  | none =>
    have hnot : m.IsIpv4 → ¬ IsTcpUdp m.nextProtoId := by
      intro hip hp
      exact absurd (parse_eq_some.2 ⟨hip, hp, rfl⟩) (by rw [hk]; simp)
    rw [contained_of_dropped (by rw [hk]; rfl), below_parseProg]
    refine and_congr_right fun _ => forall_congr' fun hip => and_congr_right fun _ => ?_
    exact ⟨fun _ hp => absurd hp (hnot hip), fun _ hp => absurd hp (hnot hip)⟩
  | some k =>
    obtain ⟨hip, hp, rfl⟩ := parse_eq_some.1 hk
    rcases translateProg_cases h hk with
      ⟨hnot, htr⟩ | ⟨hf, addr, port, newIp, newPort, t, haddr, hport, htr⟩
    · rw [contained_of_dropped (by rw [hk, htr]), below_parseProg]
      simp [hip, hp, hnot]
    · rw [contained_of_sent (by rw [hk, htr]), below_parseProg, below_rewriteProg haddr hport]
      have hann : announced m = 14 + max 20 (hdrLen m.data ipOff) +
          (if m.nextProtoId = ipprotoTcp then 20 else 8) := by
        rw [announced, if_neg (not_not.2 hip)]
        rcases hp with hp | hp
        · rw [if_pos hp, if_pos hp]
        · rw [if_pos hp]
      have hck : l4CksumOff m.nextProtoId + 2 ≤ 34 + (if m.nextProtoId = ipprotoTcp then 20 else 8) := by
        unfold l4CksumOff
        split_ifs <;> omega
      simp only [hip, hp, hf, true_imp_iff, TooShort, hann, Nat.not_lt]
      show _ ∧ (_ ∧ 14 + _ ≤ _ ∧ 34 + _ ≤ _) ∧ _ ↔ _ ∧ _ ∧ _ ∧ _ ∧ 34 + _ ≤ _
      omega

/-- **What an earlier packet left behind** makes no difference then, and stays where it is. -/
theorem Contained.leftovers {timerHz : U64} {d' : Bytes} (h : Contained (rteDocumented timerHz) now o s m)
    (hd : ∀ i < m.dataLen, m.data i = d' i) :
    (natProcessPacket (rteDocumented timerHz) now o s { m with data := d' }).map
        (fun r => (r.ret, r.state)) =
      (natProcessPacket (rteDocumented timerHz) now o s m).map (fun r => (r.ret, r.state)) ∧
    ∀ r, natProcessPacket (rteDocumented timerHz) now o s m = some r →
      ∀ i, m.dataLen ≤ i → r.mbuf.data i = m.data i := by
  obtain ⟨-, hval, -⟩ := h.inFrame.locality hd
  rw [run_natProcessPacketProg, run_natProcessPacketProg, Option.map_map, Option.map_map, ← hval]
  refine ⟨rfl, ?_⟩
  intro r hr i hi
  obtain ⟨x, -, rfl⟩ := Option.map_eq_some_iff.1 hr
  exact h.inFrame.frame (Nat.not_lt.2 hi)

theorem contained_keyFrameA : Contained ghz 0 (success 0) (natInit mainPublicIp) (keyFrame flowA) := by
  have hlong : announced (keyFrame flowA) ≤ 54 ∧ l4Off + l4Len (keyFrame flowA).data ipOff ≤ 54 := by decide
  apply (contained_iff .refl 0 (success 0) (keyFrame flowA)).2
  exact ⟨by decide, fun _ => ⟨by decide, fun _ => ⟨by decide, fun _ => hlong⟩⟩⟩

/-- The first 20 bytes of a packet of `flowA`, in a buffer that held all of it before. -/
def shortFrameA : Mbuf := { keyFrame flowA with dataLen := 20 }

/-- **A truncated frame opens a mapping.** -/
theorem short_opens :
    TooShort shortFrameA ∧ ¬ Contained ghz 0 (success 0) (natInit mainPublicIp) shortFrameA ∧
      ∃ r, natProcessPacket ghz 0 (success 0) (natInit mainPublicIp) shortFrameA = some r ∧ r.ret = 0 ∧
        r.state.fwdHash flowA = some 0 := by
  have hshort : TooShort shortFrameA := by
    show 20 < announced shortFrameA
    decide
  have hparse : parse shortFrameA = some flowA := parse_webFlow (netAddr 10 0 0 1) (netAddr 8 8 8 8)
  have hr := @natProcessPacket_flowA ghz _ hparse
  refine ⟨hshort, fun hc => ?_, _, hr, rfl, by decide⟩
  obtain ⟨r, hr', hneg, -⟩ := hc.dropped hshort
  obtain rfl := Option.some.inj (hr.symm.trans hr')
  exact absurd hneg (by decide)

end DpdkBeginners.Napt
