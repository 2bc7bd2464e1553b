import DpdkBeginners.Forwarding.Loops
import DpdkBeginners.Pool.Rep
import Mathlib.Data.Finset.Card

/-!
# When a packet is dropped

A packet is dropped when there is no slot to give it.  `outbound_map` is in bijection with the slots in use,
so that is the case if and only if as many private hosts as there are slots hold one
(`Rep.takenByOthers_iff`).

`burst_exact`: what becomes of each packet of a burst, in the pool that the packets before it leave behind.
-/

namespace DpdkBeginners.Pool

open DpdkBeginners.Rte DpdkBeginners.Lib

variable {E : Env} {p q : NatPool} {m : Mbuf} {now : U64} {i slot : ℕ} {ip src : U32}
  {evs : List Event} {addr range : U32} {hz : U64} {statics : List (U32 × U32)}

/-! ### Counting hosts -/

/-- The private host `ip` holds a slot. -/
def HoldsSlot (p : NatPool) (ip : U32) : Prop :=
  ∃ i < p.poolSize.toNat, (p.entries i).inUse = true ∧ (p.entries i).privateIp = ip

/-- `pool_size` distinct hosts other than `src` hold slots. -/
def TakenByOthers (p : NatPool) (src : U32) : Prop :=
  ∃ hosts : Finset U32, hosts.card = p.poolSize.toNat ∧ src ∉ hosts ∧ ∀ ip ∈ hosts, HoldsSlot p ip

theorem Rep.holdsSlot_iff (hp : Rep p) : HoldsSlot p ip ↔ p.outboundMap ip ≠ none := by
  rw [Option.ne_none_iff_exists']
  constructor
  · rintro ⟨i, hi, hu, hip⟩
    exact ⟨i, hp.iff.2 ⟨hi, hu, hip⟩⟩
  · rintro ⟨i, hmap⟩
    exact ⟨i, hp.iff.1 hmap⟩

/-- The slots in use. -/
def usedSlots (p : NatPool) : Finset ℕ :=
  (Finset.range p.poolSize.toNat).filter fun i => (p.entries i).inUse = true

/-- The hosts that hold them. -/
def hosts (p : NatPool) : Finset U32 := (usedSlots p).image fun i => (p.entries i).privateIp

theorem mem_hosts : ip ∈ hosts p ↔ HoldsSlot p ip := by
  simp [hosts, usedSlots, HoldsSlot, and_assoc]

theorem Rep.card_hosts (hp : Rep p) : (hosts p).card = (usedSlots p).card := by
  apply Finset.card_image_of_injOn
  intro i hi j hj hij
  obtain ⟨hi, hui⟩ := Finset.mem_filter.1 hi
  obtain ⟨hj, huj⟩ := Finset.mem_filter.1 hj
  have h₁ := hp.iff.2 ⟨Finset.mem_range.1 hi, hui, rfl⟩
  have h₂ := hp.iff.2 ⟨Finset.mem_range.1 hj, huj, hij.symm⟩
  exact Option.some.inj (h₁.symm.trans h₂)

/-- **The pool is taken by others** if and only if every slot is in use. -/
theorem Rep.takenByOthers_iff (hp : Rep p) (hsrc : ¬ HoldsSlot p src) :
    TakenByOthers p src ↔ ∀ i < p.poolSize.toNat, (p.entries i).inUse = true := by
  constructor
  · rintro ⟨S, hcard, -, hS⟩
    have hsub : S ⊆ hosts p := fun ip hip => mem_hosts.2 (hS ip hip)
    have hle := Finset.card_le_card hsub
    rw [hcard, hp.card_hosts] at hle
    have hfull : usedSlots p = Finset.range p.poolSize.toNat :=
      Finset.eq_of_subset_of_card_le (Finset.filter_subset ..) (by rwa [Finset.card_range])
    intro i hi
    rw [← Finset.mem_range, ← hfull] at hi
    exact (Finset.mem_filter.1 hi).2
  · intro hfull
    have hused : usedSlots p = Finset.range p.poolSize.toNat :=
      Finset.filter_true_of_mem fun i hi => hfull i (Finset.mem_range.1 hi)
    refine ⟨hosts p, ?_, fun h => hsrc (mem_hosts.1 h), fun ip => mem_hosts.1⟩
    rw [hp.card_hosts, hused, Finset.card_range]

theorem exhausted_iff (hsize : p.poolSize.toNat < 2 ^ 31) :
    Exhausted p ↔ ∀ i < p.poolSize.toNat, (p.entries i).inUse = true :=
  ⟨fun h i hi => h i hi (by omega), fun h i hi _ => h i hi⟩

/-! ### One packet -/

/-- The destination has a static mapping. -/
def Static (p : NatPool) (m : Mbuf) : Prop := p.inboundMap m.dstAddr ≠ none

/-- The packet needs a slot of its own. -/
def Unmapped (p : NatPool) (m : Mbuf) : Prop :=
  m.IsIpv4 ∧ ¬ Static p m ∧ ¬ HoldsSlot p m.srcAddr

/-- What a packet must do: `q` is the pool and `buf` the buffer after it. -/
structure ExactStep (E : Env) (p : NatPool) (now : U64) (m : Mbuf) (q : NatPool) (buf : Option Mbuf) :
    Prop where
  /-- It is dropped exactly when it needs a slot and others have them all. -/
  dropped_iff : buf = none ↔ Unmapped p m ∧ TakenByOthers p m.srcAddr
  /-- A drop, a packet that is not IPv4 and an inbound translation leave the slots and the map alone. -/
  unchanged : buf = none ∨ ¬ m.IsIpv4 ∨ Static p m →
    q.entries = p.entries ∧ q.outboundMap = p.outboundMap
  /-- Otherwise a packet that needs a slot is given the lowest free one. -/
  lowest : Unmapped p m → ¬ TakenByOthers p m.srcAddr → ∃ slot < p.poolSize.toNat,
    (p.entries slot).inUse = false ∧ (∀ j < slot, (p.entries j).inUse = true) ∧
      q = assigned p slot m.srcAddr now ∧
      buf = some (rewriteAndRecalc E m (p.entries slot).publicIp true)
  /-- What is not dropped is the packet itself, as it was or rewritten. -/
  survives : ∀ m', buf = some m' → m' = m ∨ ∃ ip isSrc, m' = rewriteAndRecalc E m ip isSrc

theorem Rep.exactStep (hp : Rep p) (hsize : p.poolSize.toNat < 2 ^ 31) :
    ExactStep E p now m (natApplyPacket E p now m).1 (natApplyPacket E p now m).2 := by
  have hfull : ¬ HoldsSlot p m.srcAddr → (TakenByOthers p m.srcAddr ↔ Exhausted p) :=
    fun hsrc => (hp.takenByOthers_iff hsrc).trans (exhausted_iff hsize).symm
  have hholds : ¬ HoldsSlot p m.srcAddr ↔ p.outboundMap m.srcAddr = none :=
    not_iff_comm.1 hp.holdsSlot_iff.symm
  generalize h : natApplyPacket E p now m = t
  have hcase := natApplyPacket_cases E p now m
  rw [h] at hcase
  cases hcase with
  | notIpv4 hip =>
    have hun : ¬ Unmapped p m := fun hun => hip hun.1
    exact ⟨⟨fun h => (nomatch h), fun h => absurd h.1 hun⟩, fun _ => ⟨rfl, rfl⟩,
      fun h => absurd h hun, fun m' h => .inl (Option.some.inj h).symm⟩
  | static hip hin =>
    have hun : ¬ Unmapped p m := fun hun => hun.2.1 (by simp [Static, hin])
    exact ⟨⟨fun h => (nomatch h), fun h => absurd h.1 hun⟩, fun _ => ⟨rfl, rfl⟩,
      fun h => absurd h hun, fun m' h => .inr ⟨_, _, (Option.some.inj h).symm⟩⟩
  | known hip hin hs =>
    have hun : ¬ Unmapped p m := fun hun => by simp [hholds.1 hun.2.2] at hs
    refine ⟨⟨fun h => (nomatch h), fun h => absurd h.1 hun⟩, ?_, fun h => absurd h hun,
      fun m' h => .inr ⟨_, _, (Option.some.inj h).symm⟩⟩
    rintro (h | h | h)
    · exact (nomatch h)
    · exact absurd hip h
    · exact absurd hin h
  | @assigned slot hip hin hs hfree =>
    have htaken : ¬ TakenByOthers p m.srcAddr :=
      fun h => hfree.not_exhausted ((hfull (hholds.2 hs)).1 h)
    refine ⟨⟨fun h => (nomatch h), fun h => absurd h.2 htaken⟩, ?_,
      fun _ _ => ⟨slot, hfree.1, hfree.2.2.1, hfree.2.2.2, rfl, rfl⟩,
      fun m' h => .inr ⟨_, _, (Option.some.inj h).symm⟩⟩
    rintro (h | h | h)
    · exact (nomatch h)
    · exact absurd hip h
    · exact absurd hin h
  | dropped hip hin hs hex =>
    have hun : Unmapped p m := ⟨hip, fun h => h hin, hholds.2 hs⟩
    have htaken : TakenByOthers p m.srcAddr := (hfull hun.2.2).2 hex
    exact ⟨⟨fun _ => ⟨hun, htaken⟩, fun _ => rfl⟩, fun _ => ⟨rfl, rfl⟩,
      fun _ h => absurd htaken h, fun m' h => (nomatch h)⟩

/-! ### A burst -/

section Burst

variable {ι : Type*}

theorem dropped_subset (names : List ι) (out : List (Option Mbuf)) :
    Forwarding.dropped names out ⊆ names := by
  intro name hname
  obtain ⟨x, hx, heq⟩ := List.mem_filterMap.1 hname
  split_ifs at heq with hnone
  obtain rfl := Option.some.inj heq
  exact (List.of_mem_zip hx).1

theorem count_dropped [DecidableEq ι] {names : List ι} {out : List (Option Mbuf)} (hnodup : names.Nodup)
    {i : ℕ} {name : ι} {buf : Option Mbuf} (hname : names[i]? = some name) (hbuf : out[i]? = some buf) :
    (Forwarding.dropped names out).count name = if buf.isNone then 1 else 0 := by
  induction names generalizing i out with
  | nil => simp at hname
  | cons n names ih =>
    cases out with
    | nil => simp at hbuf
    | cons o out =>
      obtain ⟨hn, hnodup⟩ := List.nodup_cons.1 hnodup
      have hhead : Forwarding.dropped (n :: names) (o :: out) =
          (if o.isNone then [n] else []) ++ Forwarding.dropped names out := by
        cases o <;> rfl
      rw [hhead, List.count_append]
      cases i with
      | zero =>
        obtain rfl : n = name := by simpa using hname
        obtain rfl : o = buf := by simpa using hbuf
        have hrest : (Forwarding.dropped names out).count n = 0 :=
          List.count_eq_zero_of_not_mem fun h => hn (dropped_subset names out h)
        rw [hrest]
        cases o <;> simp
      | succ i =>
        have hname' : names[i]? = some name := by simpa using hname
        have hbuf' : out[i]? = some buf := by simpa using hbuf
        have hne : n ≠ name := fun h => hn (h ▸ List.mem_of_getElem? hname')
        rw [ih hnodup hname' hbuf']
        cases o <;> simp [hne]

/-- **A burst.**  In every state that a run reaches, each packet of a burst is dropped exactly when it has to
be, and is given the slot that it has to be given, in the pool that the packets before it leave behind; its
buffer stays in its place, and it is freed once if it is dropped and not at all otherwise. -/
theorem burst_exact [DecidableEq ι] (h : Run (Step E) (initPool addr range hz statics) evs p)
    (hsize : range.toNat < 2 ^ 31) (bufs : List (Mbuf × U64)) {names : List ι}
    (hnames : names.length = bufs.length) (hnodup : names.Nodup) :
    (natPoolApply E p bufs).2.length = bufs.length ∧
    ∀ before m now after, bufs = before ++ (m, now) :: after → ∃ buf name,
      (natPoolApply E p bufs).2[before.length]? = some buf ∧ names[before.length]? = some name ∧
      (Forwarding.dropped names (natPoolApply E p bufs).2).count name = (if buf.isNone then 1 else 0) ∧
      ExactStep E (natPoolApply E p before).1 now m (natPoolApply E p (before ++ [(m, now)])).1 buf := by
  have hlength : ∀ (p : NatPool) (bufs : List (Mbuf × U64)),
      (natPoolApply E p bufs).2.length = bufs.length := by
    intro p bufs
    induction bufs generalizing p with
    | nil => rfl
    | cons x bufs ih => rw [natPoolApply_cons, List.length_cons, List.length_cons, ih]
  refine ⟨hlength p bufs, ?_⟩
  rintro before m now after rfl
  set q := (natPoolApply E p before).1 with hq
  have hrun : Run (Step E) (initPool addr range hz statics) _ q := h.append (natPoolApply_run E p before)
  have hbuf : (natPoolApply E p (before ++ (m, now) :: after)).2[before.length]? =
      some (natApplyPacket E q now m).2 := by
    rw [natPoolApply_append, List.getElem?_append_right (Nat.le_of_eq (hlength ..)), hlength,
      Nat.sub_self, natPoolApply_cons]
    rfl
  have hpool : (natPoolApply E p (before ++ [(m, now)])).1 = (natApplyPacket E q now m).1 := by
    rw [natPoolApply_append]
    rfl
  have hlt : before.length < names.length := by
    rw [hnames, List.length_append, List.length_cons]
    omega
  have hname := List.getElem?_eq_getElem hlt
  refine ⟨_, _, hbuf, hname, count_dropped hnodup hname hbuf, ?_⟩
  rw [hpool]
  exact (run_rep hrun).exactStep (by rwa [(run_config hrun).1])

/-- Four hosts take the slots that `hostA` leaves free, the fifth finds none, and `hostA` sends again. -/
def fillingBurst : List (Mbuf × U64) :=
  [51, 52, 53, 54, 55, 50].map fun n => (frame (netAddr 192 168 1 n) remote, 2000000000)

/-- The pool that the first `n` packets of the burst leave behind. -/
def filledPool (n : ℕ) : NatPool := (natPoolApply ghz (fivePoolA mainStart) (fillingBurst.take n)).1

theorem burst_exact_fillingBurst :
    Forwarding.dropped (List.range 6) (natPoolApply ghz (fivePoolA mainStart) fillingBurst).2 = [4] ∧
    ExactStep ghz (filledPool 4) 2000000000 (frame (netAddr 192 168 1 55) remote) (filledPool 5) none ∧
    ∃ r, ExactStep ghz (filledPool 5) 2000000000 (frame hostA remote) (filledPool 6) (some r) := by
  have hdropped :
      Forwarding.dropped (List.range 6) (natPoolApply ghz (fivePoolA mainStart) fillingBurst).2 = [4] := by
    decide +kernel
  obtain ⟨-, hstep⟩ := burst_exact (run_fivePoolA mainStart) (by decide) fillingBurst
    (show (List.range 6).length = _ from rfl) (by decide)
  rw [hdropped] at hstep
  refine ⟨hdropped, ?_, ?_⟩
  · obtain ⟨buf, name, -, hname, hcount, hexact⟩ := hstep (fillingBurst.take 4) _ _ (fillingBurst.drop 5) rfl
    obtain rfl : 4 = name := Option.some.inj hname
    cases buf with
    | none => exact hexact
    | some r => cases hcount
  · obtain ⟨buf, name, -, hname, hcount, hexact⟩ := hstep (fillingBurst.take 5) _ _ [] rfl
    obtain rfl : 5 = name := Option.some.inj hname
    cases buf with
    | none => cases hcount
    | some r => exact ⟨r, hexact⟩

end Burst

end DpdkBeginners.Pool
