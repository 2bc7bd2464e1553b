import DpdkBeginners.Forwarding.Checksums
import DpdkBeginners.Rte.Mempool
import DpdkBeginners.Version3.Defs

/-!
# From the mappings to the packets

Once the mappings have been read as they were meant, a packet leaves with the public address that its source is
mapped to last, and with checksums that verify; of the rest of the packet nothing changes.
-/

namespace DpdkBeginners.Version3

open DpdkBeginners.Rte DpdkBeginners.Lib DpdkBeginners.Pool DpdkBeginners.Forwarding

/-! ### The table -/

section Table

variable {ht ht' : NatTable} {x : Added} {adds : ℕ → Added} {w : List Byte × List Byte}
  {ws : List (List Byte × List Byte)}

/-- The public address of a source. -/
def publicOf (ht : NatTable) (ip : U32) : Option U32 := (ht ip).map NatEntry.publicIp

/-- There is memory, and the insert succeeds. -/
def Added.Succeeds (x : Added) : Prop := x.memory.isSome ∧ x.inserted = true

/-- What the memory holds. -/
def Added.junk (x : Added) : U32 × U32 := x.memory.getD (0, 0)

theorem natAddMapping_eq_none (h : ¬ x.Succeeds) : natAddMapping x ht w.1 w.2 = none := by
  unfold natAddMapping
  cases hm : x.memory with
  | none => rfl
  | some junk =>
    refine if_pos ?_
    by_contra hi
    exact h ⟨by rw [hm]; rfl, by simpa using hi⟩

theorem natAddMapping_of_succeeds (h : x.Succeeds) (ht : NatTable) (w : List Byte × List Byte) :
    ∃ ht', natAddMapping x ht w.1 w.2 = some ht' ∧ publicOf ht' = put (publicOf ht) (stored x.junk w) := by
  obtain ⟨junk, hm⟩ := Option.isSome_iff_exists.1 h.1
  have hins : x.inserted ≠ false := by simp [h.2]
  refine ⟨_, by rw [natAddMapping, hm]; exact if_neg hins, ?_⟩
  funext ip
  rw [Added.junk, hm, Option.getD_some]
  unfold publicOf put stored
  by_cases heq : ip = (inetPton w.1).getD junk.1
  · subst heq
    simp [rteHashAddKeyData]
  · simp [rteHashAddKeyData, heq]

/-- The calls of `nat_add_mapping` with the words `ws`, of which the first is the `n`-th of the program. -/
def addAll (adds : ℕ → Added) (ht : NatTable) (n : ℕ) : List (List Byte × List Byte) → Option NatTable
  | [] => some ht
  | w :: ws => (natAddMapping (adds n) ht w.1 w.2).bind fun ht => addAll adds ht (n + 1) ws

theorem natLoad_eq (adds : ℕ → Added) (ht : NatTable) (n : ℕ) (lines : List (List Byte)) :
    natLoad adds ht n lines = addAll adds ht n (lines.filterMap readLine) := by
  induction lines generalizing ht n with
  | nil => rfl
  | cons line lines ih =>
    unfold natLoad
    cases hw : readLine line with
    | none => simp only [List.filterMap_cons, hw, ih]
    | some w => simp only [List.filterMap_cons, hw, ih, addAll]

/-- **The calls succeed**, and then their mappings are in the table; or one of them ends the program. -/
theorem addAll_of_succeeds (n : ℕ) (ht : NatTable) (h : ∀ k < ws.length, (adds (n + k)).Succeeds) :
    ∃ ht', addAll adds ht n ws = some ht' ∧
      publicOf ht' = (storedAll (fun k => (adds k).junk) n ws).foldl put (publicOf ht) := by
  induction ws generalizing n ht with
  | nil => exact ⟨ht, rfl, rfl⟩
  | cons w ws ih =>
    obtain ⟨ht₁, h₁, hpub₁⟩ := natAddMapping_of_succeeds (h 0 (Nat.succ_pos _)) ht w
    obtain ⟨ht₂, h₂, hpub₂⟩ := ih (n + 1) ht₁ fun k hk => by
      rw [Nat.add_assoc, Nat.add_comm 1 k]
      exact h (k + 1) (Nat.succ_lt_succ hk)
    refine ⟨ht₂, ?_, ?_⟩
    · rw [addAll]
      exact (congrArg (Option.bind · _) h₁).trans h₂
    · rw [hpub₂, hpub₁]
      rfl

theorem addAll_eq_none (n : ℕ) (ht : NatTable) {k : ℕ} (hk : k < ws.length) (h : ¬ (adds (n + k)).Succeeds) :
    addAll adds ht n ws = none := by
  induction ws generalizing n ht k with
  | nil => cases hk
  | cons w ws ih =>
    rw [addAll, Option.bind_eq_none_iff]
    intro ht₁ h₁
    cases k with
    | zero =>
      rw [Nat.add_zero] at h
      rw [natAddMapping_eq_none h] at h₁
      cases h₁
    | succ k =>
      refine ih (n + 1) ht₁ (Nat.lt_of_succ_lt_succ hk) ?_
      rwa [Nat.add_assoc, Nat.add_comm 1 k]

/-- The words that enter a mapping, and its addresses. -/
def Enters (w : List Byte × List Byte) (x : U32 × U32) : Prop :=
  inetPton (cString w.1) = some x.1 ∧ inetPton (cString w.2) = some x.2

/-- The words as `nat_add_mapping` sees them. -/
def cStrings (w : List Byte × List Byte) : List Byte × List Byte := (cString w.1, cString w.2)

theorem Enters.ne_exit {x : U32 × U32} (h : Enters w x) : cString w.1 ≠ exit := by
  intro he
  have hpton := h.1
  rw [he] at hpton
  cases hpton

/-- **The table that is entered by hand.** -/
theorem natEnter_eq {xs : List (U32 × U32)} (h : List.Forall₂ Enters ws xs) (rest : List (List Byte)) (n : ℕ)
    (ht : NatTable) :
    natEnter adds ht n (ws.flatMap (fun w => [w.1, w.2]) ++ exit :: rest) = addAll adds ht n (ws.map cStrings) := by
  induction h generalizing n ht with
  | nil =>
    cases rest with
    | nil => rfl
    | cons w rest => rfl
  | @cons w x ws xs hw _ ih =>
    rw [List.flatMap_cons, List.append_assoc]
    refine (if_neg hw.ne_exit).trans ?_
    rw [List.map_cons, addAll]
    exact congrArg _ (funext fun ht => ih (n + 1) ht)

theorem storedAll_enters {xs : List (U32 × U32)} (h : List.Forall₂ Enters ws xs) (junk : ℕ → U32 × U32) (n : ℕ) :
    storedAll junk n (ws.map cStrings) = xs := by
  induction h generalizing n with
  | nil => rfl
  | cons hw _ ih =>
    rw [List.map_cons, storedAll, ih, stored, cStrings, hw.1, hw.2]
    rfl

end Table

/-! ### A packet -/

/-- The bytes of a packet that a translation changes: the source address and the two checksums. -/
def Changes (proto : U8) (i : ℕ) : Prop :=
  24 ≤ i ∧ i < 30 ∨
    (proto = ipprotoTcp ∨ proto = ipprotoUdp) ∧ 34 + 2 * cksumWord proto ≤ i ∧ i < 36 + 2 * cksumWord proto

/-- `r` is `m` with another source and checksums that verify. -/
structure Translated (m : Mbuf) (pub : U32) (r : Mbuf) : Prop where
  header : r.header = { m.header with srcAddr := pub }
  dataLen : r.dataLen = m.dataLen
  other : ∀ i, ¬ Changes m.nextProtoId i → r.data i = m.data i
  verified : m.Complete → Verified r
  checks : 20 ≤ hdrLen m.data ipOff → m.nextProtoId ≠ ipprotoTcp → m.nextProtoId ≠ ipprotoUdp →
    Checks (ipv4Sum r.data ipOff)

theorem translated_rewriteAndRecalc (timerHz : U64) (m : Mbuf) (pub : U32) :
    Translated m pub (rewriteAndRecalc (rteDocumented timerHz) m pub true) where
  header := rewriteAndRecalc_header ..
  dataLen := by
    rw [rewriteAndRecalc_eq]
    split_ifs <;> rfl
  other i hi := by
    obtain ⟨haddr, hck⟩ := not_or.1 hi
    have hset : (i < 24 ∨ 26 ≤ i) → fillIpv4 (rteDocumented timerHz) (setAddr m pub true).data ipOff i = m.data i := by
      intro h
      rw [fillIpv4_apply _ h]
      exact store32_apply pub (by omega)
    rw [rewriteAndRecalc_eq]
    split_ifs with hp
    · have hout : i < 34 + 2 * cksumWord m.nextProtoId ∨ 36 + 2 * cksumWord m.nextProtoId ≤ i := by
        by_contra h
        exact hck ⟨hp, by omega, by omega⟩
      show fillUdptcp _ (fillIpv4 _ _ ipOff) ipOff _ i = _
      rw [fillUdptcp_apply]
      · exact hset (by omega)
      · show i < 14 + 20 + 2 * _ ∨ 14 + 20 + 2 * _ + 2 ≤ i
        omega
    · exact hset (by omega)
  verified hm := by
    have hc : HasCksums (setAddr m pub true) (cksumWord m.nextProtoId) :=
      (hasCksums_of_complete hm).congr fun i hi => setAddr_apply m pub true (by omega)
    rw [rewriteAndRecalc_eq, if_pos hm.proto]
    exact hc.verified_hdrFirst
  checks hihl htcp hudp := by
    rw [rewriteAndRecalc_eq, if_neg (not_or.2 ⟨htcp, hudp⟩)]
    apply checks_fillIpv4
    rwa [hdrLen_congr (setAddr_apply m pub true (by show 14 < 26 ∨ 34 ≤ 14; omega))]

/-- What becomes of a packet by the mappings `ms`. -/
def Leaves (ms : List (U32 × U32)) (m r : Mbuf) : Prop :=
  match if m.IsIpv4 then lastMapping ms m.srcAddr else none with
  | none => r = m
  | some pub => Translated m pub r

theorem leaves_natApplyPacket {ht : NatTable} {ms : List (U32 × U32)} (h : publicOf ht = lastMapping ms)
    (timerHz : U64) (m : Mbuf) : Leaves ms m (natApplyPacket (rteDocumented timerHz) ht m) := by
  unfold Leaves natApplyPacket
  by_cases hip : m.IsIpv4
  · rw [if_pos hip, if_neg (not_not.2 hip), ← h, publicOf]
    cases hs : ht m.srcAddr with
    | none =>
      rw [show rteHashLookupData ht m.srcAddr = none from hs]
      rfl
    | some entry =>
      rw [show rteHashLookupData ht m.srcAddr = some entry from hs]
      exact translated_rewriteAndRecalc timerHz m entry.publicIp
  · rw [if_neg hip, if_pos hip]

/-! ### The program -/

/-- The mappings that a source is meant to give, and the words that `nat_add_mapping` is called with. -/
inductive Source.Means : Source → List (U32 × U32) → List (List Byte × List Byte) → Prop
  | missing : Means (.file none) [] []
  | file {file : List Byte} : (∀ l ∈ file.splitOn newline, ReadsRight l) →
      Means (.file (some file)) (mappings file) (wordPairs file)
  | entered {ws : List (List Byte × List Byte)} {xs : List (U32 × U32)} (rest : List (List Byte)) :
      List.Forall₂ Enters ws xs →
        Means (.entered (ws.flatMap (fun w => [w.1, w.2]) ++ exit :: rest)) xs (ws.map cStrings)

variable {src : Source} {ms : List (U32 × U32)} {calls : List (List Byte × List Byte)} {found : Found} {ht : NatTable}

theorem Source.Means.natTable_eq (h : src.Means ms calls) (found : Found) :
    natTable found src = (natTableCreate found.created).bind fun ht => addAll found.adds ht 0 calls := by
  cases h with
  | missing => rfl
  | file _ => exact congrArg _ (funext fun ht => natLoad_eq found.adds ht 0 _)
  | entered rest hws => exact congrArg _ (funext fun ht => natEnter_eq hws rest 0 ht)

/-- **The mappings that the calls store** are the ones that are meant, whatever the memory holds. -/
theorem Source.Means.foldl_put (h : src.Means ms calls) (junk : ℕ → U32 × U32) :
    (storedAll junk 0 calls).foldl put (fun _ => none) = lastMapping ms := by
  rw [lastMapping_eq]
  cases h with
  | missing => rfl
  | file hfile => exact foldl_put_file hfile junk 0 _
  | entered rest hws => rw [storedAll_enters hws]

/-- **When there is a table**: if it can be created and all the calls succeed. -/
theorem Source.Means.natTable_eq_none_iff (h : src.Means ms calls) :
    natTable found src = none ↔ found.created = false ∨ ∃ k < calls.length, ¬ (found.adds k).Succeeds := by
  rw [h.natTable_eq]
  cases hcreated : found.created with
  | false => exact ⟨fun _ => .inl rfl, fun _ => rfl⟩
  | true =>
    change addAll found.adds rteHashEmpty 0 calls = none ↔ _
    constructor
    · intro hnone
      by_contra hall
      have hsucceeds : ∀ k < calls.length, (found.adds (0 + k)).Succeeds := by
        intro k hk
        rw [Nat.zero_add]
        by_contra hfail
        exact hall (.inr ⟨k, hk, hfail⟩)
      obtain ⟨ht, hsome, -⟩ := addAll_of_succeeds 0 rteHashEmpty hsucceeds
      cases hnone.symm.trans hsome
    · rintro (hfalse | ⟨k, hk, hfail⟩)
      · cases hfalse
      · exact addAll_eq_none 0 rteHashEmpty hk (by rwa [Nat.zero_add])

theorem Source.Means.publicOf_eq (h : src.Means ms calls) (hht : natTable found src = some ht) :
    publicOf ht = lastMapping ms := by
  have hsome : natTable found src ≠ none := by
    rw [hht]
    exact Option.some_ne_none ht
  obtain ⟨hcreated, hsucceeds⟩ := not_or.1 fun hor => hsome (h.natTable_eq_none_iff.2 hor)
  have hall : ∀ k < calls.length, (found.adds (0 + k)).Succeeds := by
    intro k hk
    rw [Nat.zero_add]
    by_contra hfail
    exact hsucceeds ⟨k, hk, hfail⟩
  obtain ⟨ht', hsome', hpub⟩ := addAll_of_succeeds 0 rteHashEmpty hall
  rw [h.natTable_eq, natTableCreate, if_pos (by simpa using hcreated)] at hht
  obtain rfl : ht' = ht := Option.some.inj (hsome'.symm.trans hht)
  rw [hpub]
  exact h.foldl_put _

section Loop

variable {ι : Type*} (E : Env) (ht : NatTable)

theorem given_iteration (b : Burst ι) : given (iteration E ht b).2 = (b.bufs : Multiset ι) := by
  unfold iteration
  split_ifs with hpos
  · rw [given, accepted_sendOrFree, freed_sendOrFree, Multiset.coe_add, List.take_append_drop]
  · rw [List.length_eq_zero_iff.1 (Nat.eq_zero_of_not_pos hpos)]
    rfl

/-- The main loop. -/
def mainLoop : Loop (Burst ι) ι where
  received := Burst.bufs
  ops b := (iteration E ht b).2
  gives b := (given_iteration E ht b).le

theorem iteration_fst (b : Burst ι) : (iteration E ht b).1 = (b.bufs.map b.mtod).map (natApplyPacket E ht) := by
  unfold iteration natApply
  split_ifs with hpos
  · rfl
  · rw [List.length_eq_zero_iff.1 (Nat.eq_zero_of_not_pos hpos)]
    rfl

/-- **From the mappings to the packets.**  When the mappings are read as they are meant, the program ends before its
main loop if and only if the table cannot be created or one of the mappings cannot be allocated or inserted.  Otherwise
each packet of an iteration leaves with the last public address of its source, or unchanged if it has none or is not
IPv4; and all the mbufs of the pool remain in use, however many the transmit queue refuses. -/
theorem mappings_to_packets [DecidableEq ι] (h : src.Means ms calls) (found : Found) (timerHz : U64) :
    (natTable found src = none ↔ found.created = false ∨ ∃ k < calls.length, ¬ (found.adds k).Succeeds) ∧
    ∀ ht, natTable found src = some ht →
      (∀ b : Burst ι, List.Forall₂ (Leaves ms) (b.bufs.map b.mtod)
        (iteration (rteDocumented timerHz) ht b).1) ∧
      ∀ (mbufs : Multiset ι) evs p,
        Run (mainLoop (rteDocumented timerHz) ht).Step (rtePktmbufPoolCreate mbufs) evs p →
          p.avail + p.queued = mbufs := by
  refine ⟨h.natTable_eq_none_iff, fun ht hht => ⟨fun b => ?_, fun _ _ _ hrun => Loop.whole ?_ hrun⟩⟩
  · rw [iteration_fst, List.forall₂_map_right_iff, List.forall₂_same]
    exact fun m _ => leaves_natApplyPacket (h.publicOf_eq hht) timerHz m
  · exact fun b => Loop.leaks_eq_zero (given_iteration _ ht b)

end Loop

/-- A packet of the source that `shortLine` maps, and one of another source. -/
def mappedBurst : Burst ℕ :=
  ⟨[0, 1], fun m => frame (if m = 0 then netAddr 1 1 1 1 else netAddr 10 0 0 1) remote, takesHalf⟩

theorem means_shortLine : (Source.file (some shortLine)).Means (mappings shortLine) (wordPairs shortLine) := by
  have hl : newline ∉ shortLine := by decide
  have hfits : Fits shortLine :=
    { short := by decide
      noNul := by decide
      words := fun _ => ⟨by decide, by decide⟩ }
  apply Source.Means.file
  rw [List.splitOn_eq_singleton hl]
  intro l hmem
  rw [List.mem_singleton.1 hmem]
  exact hfits.readsRight hl

/-- Memory for every entry, and room in the table for all of them. -/
def plentyFound : Found := ⟨true, fun _ => ⟨some (0, 0), true⟩⟩

theorem mappings_to_packets_shortLine : ∃ ht, natTable plentyFound (.file (some shortLine)) = some ht ∧
    List.Forall₂ (Leaves (mappings shortLine)) [frame (netAddr 1 1 1 1) remote, frame (netAddr 10 0 0 1) remote]
      (iteration ghz ht mappedBurst).1 := by
  obtain ⟨hnone, hpackets⟩ := @mappings_to_packets _ _ _ ℕ _ means_shortLine plentyFound 1000000000
  have hsome : natTable plentyFound (.file (some shortLine)) ≠ none := by
    intro h
    rcases hnone.1 h with hcreated | ⟨k, -, hfail⟩
    · cases hcreated
    · exact hfail ⟨rfl, rfl⟩
  obtain ⟨ht, hht⟩ := Option.ne_none_iff_exists'.1 hsome
  exact ⟨ht, hht, (hpackets ht hht).1 mappedBurst⟩

end DpdkBeginners.Version3
