import DpdkBeginners.Lib.Select
import DpdkBeginners.Rte.Mbuf
import DpdkBeginners.Rte.Mempool

/-!
# The router of `longest_prefix_match_lpm/simple`

`main_loop` looks up the next hop of each IPv4 packet, prints it and sends the packet.  A packet that is not IPv4 is
"ignored", that is, its mbuf is not freed; neither is the one of a packet that the transmit queue refuses.

* `rte_lpm_lookup` is a parameter; `Documented` is what DPDK says of it.
* `printed_hops`: what is printed for each packet, whatever its address.
* `pool_drains`: each such mbuf is missing for the rest of the run, so the router has received no more of them than
  the pool has mbufs, and once it has leaked them all it receives nothing.
-/

namespace DpdkBeginners.Lpm

open DpdkBeginners.Rte DpdkBeginners.Lib

/-! ### `rte_lpm` -/

/-- What `rte_lpm_add` is called with. -/
structure Route where
  ip : U32
  depth : ℕ
  nextHop : U32

/-- The first `depth` bits of an address. -/
def prefixBits (depth : ℕ) (ip : U32) : U32 := ip >>> (32 - depth)

def Route.Matches (r : Route) (ip : U32) : Prop := prefixBits r.depth ip = prefixBits r.depth r.ip

instance (r : Route) (ip : U32) : Decidable (r.Matches ip) := inferInstanceAs (Decidable (_ = _))

/-- In a table of these routes `rte_lpm_lookup` finds the longest prefix; `none` is the return value `-ENOENT`. -/
def Documented (routes : List Route) (rteLpmLookup : U32 → Option U32) : Prop :=
  ∀ ip, ∃ best, Selects routes (·.Matches ip) Route.depth best ∧ rteLpmLookup ip = best.map Route.nextHop

/-! ### The program -/

/-- `init_lpm`. -/
def initLpm : List Route :=
  [⟨rteIpv4 10 1 2 0, 24, 1⟩, ⟨rteIpv4 10 1 0 0, 16, 2⟩, ⟨rteIpv4 192 0 0 0, 8, 3⟩, ⟨rteIpv4 172 0 0 0, 4, 4⟩]

variable {ι : Type*}

/-- What an iteration of `main_loop` receives: the mbufs, what they hold and the answers of the transmit queue. -/
structure Burst (ι : Type*) where
  pkts : List ι
  mtod : ι → Mbuf
  tx : TxQueue ι

/-- The loop over the packets: the next hops that are printed, and the calls. -/
def mainLoop (rteLpmLookup : U32 → Option U32) (mtod : ι → Mbuf) (tx : TxQueue ι) :
    List ι → List (Option U32) × List (MbufOp ι)
  | [] => ([], [])
  | m :: pkts =>
    let rest := mainLoop rteLpmLookup mtod tx pkts
    if ¬ (mtod m).IsIpv4 then rest
    else (rteLpmLookup (rteBeToCpu32 (mtod m).dstAddr) :: rest.1, tx.send [m] :: rest.2)

/-! ### Next hops -/

section Lookup

variable {rteLpmLookup : U32 → Option U32}

/-- The next hop of an address; the prefix of four bits covers all of `160.0.0.0` to `175.255.255.255`. -/
def nextHop (ip : U32) : Option U32 :=
  if prefixBits 24 ip = 0x0a0102 then some 1
  else if prefixBits 16 ip = 0x0a01 then some 2
  else if prefixBits 8 ip = 192 then some 3
  else if prefixBits 4 ip = 10 then some 4
  else none

/-- The routes are added by decreasing depth, so that the first one that matches is the longest. -/
theorem find?_initLpm (ip : U32) : (initLpm.find? (·.Matches ip)).map Route.nextHop = nextHop ip := by
  have h24 : (⟨rteIpv4 10 1 2 0, 24, 1⟩ : Route).Matches ip ↔ prefixBits 24 ip = 0x0a0102 := Iff.rfl
  have h16 : (⟨rteIpv4 10 1 0 0, 16, 2⟩ : Route).Matches ip ↔ prefixBits 16 ip = 0x0a01 := Iff.rfl
  have h8 : (⟨rteIpv4 192 0 0 0, 8, 3⟩ : Route).Matches ip ↔ prefixBits 8 ip = 192 := Iff.rfl
  have h4 : (⟨rteIpv4 172 0 0 0, 4, 4⟩ : Route).Matches ip ↔ prefixBits 4 ip = 10 := Iff.rfl
  unfold initLpm nextHop
  simp only [List.find?_cons, List.find?_nil, h24, h16, h8, h4]
  split_ifs <;> simp_all

theorem Documented.eq_nextHop (h : Documented initLpm rteLpmLookup) : rteLpmLookup = nextHop := by
  have hsorted : initLpm.Pairwise fun a b => b.depth < a.depth := by
    unfold initLpm
    decide
  funext ip
  obtain ⟨best, hbest, hlookup⟩ := h ip
  rw [hlookup, (selects_iff hsorted).1 hbest, find?_initLpm]

end Lookup

/-! ### Mbufs -/

section Mbufs

variable {rteLpmLookup : U32 → Option U32}

/-- The packets of a burst that are not IPv4. -/
def Burst.ignored (b : Burst ι) : List ι := b.pkts.filter fun m => ¬ (b.mtod m).IsIpv4

/-- Those that are, and that the transmit queue refuses. -/
def Burst.refused (b : Burst ι) : List ι := b.pkts.filter fun m => (b.mtod m).IsIpv4 ∧ b.tx.burst [m] = 0

theorem mainLoop_eq (rteLpmLookup : U32 → Option U32) (mtod : ι → Mbuf) (tx : TxQueue ι) (pkts : List ι) :
    mainLoop rteLpmLookup mtod tx pkts =
      ((pkts.filter fun m => (mtod m).IsIpv4).map fun m => rteLpmLookup (rteBeToCpu32 (mtod m).dstAddr),
        (pkts.filter fun m => (mtod m).IsIpv4).map fun m => tx.send [m]) := by
  induction pkts with
  | nil => rfl
  | cons m pkts ih =>
    rw [mainLoop, ih]
    by_cases hip : (mtod m).IsIpv4
    · rw [if_neg (not_not.2 hip), List.filter_cons_of_pos (by simpa using hip), List.map_cons, List.map_cons]
    · rw [if_pos hip, List.filter_cons_of_neg (by simpa using hip)]

/-- **What is printed** is the next hop of each IPv4 packet of the burst, in order. -/
theorem printed_hops (h : Documented initLpm rteLpmLookup) (b : Burst ι) :
    (mainLoop rteLpmLookup b.mtod b.tx b.pkts).1 =
      (b.pkts.filter fun m => (b.mtod m).IsIpv4).map fun m => nextHop (rteBeToCpu32 (b.mtod m).dstAddr) := by
  rw [mainLoop_eq, h.eq_nextHop]

theorem mainLoop_perm (rteLpmLookup : U32 → Option U32) (b : Burst ι) :
    ((mainLoop rteLpmLookup b.mtod b.tx b.pkts).2.flatMap MbufOp.offered ++
      (mainLoop rteLpmLookup b.mtod b.tx b.pkts).2.flatMap MbufOp.freed ++ b.ignored).Perm b.pkts := by
  rw [mainLoop_eq, offered_singles, freed_singles, List.append_nil, Burst.ignored]
  simpa using List.filter_append_perm (fun m => decide (b.mtod m).IsIpv4) b.pkts

/-- `main_loop`. -/
def router (rteLpmLookup : U32 → Option U32) : Loop (Burst ι) ι where
  received := Burst.pkts
  ops b := (mainLoop rteLpmLookup b.mtod b.tx b.pkts).2
  gives b := by
    rw [← add_given (mainLoop_perm rteLpmLookup b)]
    exact Multiset.le_add_right _ _

variable [DecidableEq ι]

theorem leaks_router (b : Burst ι) :
    (router rteLpmLookup).leaks b = (b.ignored : Multiset ι) + (b.refused : Multiset ι) := by
  have hops : (router rteLpmLookup).ops b = _ :=
    congrArg Prod.snd (mainLoop_eq rteLpmLookup b.mtod b.tx b.pkts)
  have hrefused : refused ((router rteLpmLookup).ops b) = (b.refused : Multiset ι) := by
    rw [refused, hops, refused_singles, List.filter_filter, Burst.refused]
    simp only [Bool.and_comm, Bool.decide_and]
  rw [Loop.leaks_eq (mainLoop_perm rteLpmLookup b), hrefused, add_comm]

theorem card_leaks (b : Burst ι) : ((router rteLpmLookup).leaks b).card = b.ignored.length + b.refused.length := by
  rw [leaks_router, Multiset.card_add]
  rfl

/-- **The router drains its pool** by the packets that are not IPv4 and those that the transmit queue refuses: their
mbufs are missing for the rest of the run, and none of them is received again. -/
theorem pool_drains :
    (router (ι := ι) rteLpmLookup).Drains (fun b => b.ignored.length + b.refused.length) ∧
    ∀ (mbufs : Multiset ι) evs p, mbufs.Nodup → Run (router rteLpmLookup).Step (rtePktmbufPoolCreate mbufs) evs p →
      ∀ b b' m, .iteration b ∈ evs → (m ∈ b.ignored ∨ m ∈ b.refused) →
        (router rteLpmLookup).Enabled p (.iteration b') → m ∉ b'.pkts := by
  refine ⟨Loop.drains_of_card card_leaks, ?_⟩
  intro mbufs evs p hnodup h b b' m hev hm hen
  have hleaks : m ∈ (router rteLpmLookup).leaks b := by
    rw [leaks_router]
    exact Multiset.mem_add.2 hm
  exact Loop.not_received hnodup h hev hleaks hen

end Mbufs

/-- A packet that is not IPv4. -/
def zeros : Mbuf := ⟨fun _ => 0, 60⟩

/-- One packet, and then perhaps another or the same one again. -/
def oneBurst (m : ℕ) : Burst ℕ := ⟨[m], fun _ => zeros, takesHalf⟩

/-- Once the mbuf 0 of a pool of two has been ignored, the router can receive the other one but not this one. -/
theorem pool_drains_oneBurst : (oneBurst 1).pkts.length + 1 ≤ 2 ∧
    ¬ (router nextHop).Enabled ⟨{1}, 0, {0}⟩ (.iteration (oneBurst 0)) := by
  have hrun : Run (router nextHop).Step (rtePktmbufPoolCreate {0, 1}) [.iteration (oneBurst 0)] ⟨{1}, 0, {0}⟩ :=
    Run.single_iff.2 ⟨by decide, by decide⟩
  obtain ⟨hdrains, hlost⟩ := @pool_drains ℕ nextHop _
  refine ⟨(hdrains _ _ _ hrun).2 (oneBurst 1) (by decide), fun hen => ?_⟩
  exact hlost {0, 1} _ _ (by decide) hrun (oneBurst 0) (oneBurst 0) 0 (by simp) (.inl (by decide)) hen (by decide)

end DpdkBeginners.Lpm
