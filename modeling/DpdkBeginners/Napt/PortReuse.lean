import DpdkBeginners.Napt.RoundTrip
import DpdkBeginners.Napt.Ports

/-!
# What a clash of reverse keys does

`clash_misdelivers`: the moment a packet opens an entry under the reverse key of a live one, the
replies to the older flow go to the client of the newer one.  So `NoClash` is not only enough for the
round trip.

A clash needs no more than one cycle of the port counter.  In `port_reuse_misdelivers` the flow
`flowA` is given the port 1025; another client opens 64510 flows to another server, which take all the
other ports; then `flowB`, to the server of `flowA`, is given 1025 again.  No timer has fired, and the
64512 live entries fit into the tables.
-/

namespace DpdkBeginners.Napt

open DpdkBeginners.Rte DpdkBeginners.Lib

variable {E : Env} {now : ℕ} {o : Outcome} {s : NatState} {k : NatKey} {p q : Ptr} {e : NatEntry}

/-! ### A clash sends replies to the wrong client -/

/-- **After a clash the replies to the older flow no longer reach its client.** -/
theorem clash_misdelivers (hf : FwdExact s) (hs : FlowEntries s) (he : s.heap q = some e)
    (hk : s.fwdHash k = none) (hadd : o.addRev = true)
    (hclash : e.revKey = (freshEntry s k).revKey) :
    ¬ RepliesReach E (created E now o s k p) e.fwdKey e.publicPort := by
  obtain ⟨k₀, port, rfl, -, htcp⟩ := hs q e he
  intro hreach
  set t := created E now o s k p with ht
  have hrev : t.revHash (replyKey s.publicIp port k₀) = some p := by
    rw [ht, created_revHash hadd, ← hclash]
    exact Function.update_self ..
  have hheap : t.heap p = some (freshEntry s k) := by
    rw [ht, created_heap]
    exact Function.update_self ..
  have hparse : parse (keyFrame (replyKey s.publicIp port k₀)) = some (replyKey s.publicIp port k₀) :=
    parse_keyFrame htcp
  have hdst : (replyKey s.publicIp port k₀).dstIp = t.publicIp := rfl
  obtain ⟨r, hr, -, hhdr⟩ := hreach 0 o _ hparse
  rw [natProcessPacket_inbound hparse hdst hrev hheap] at hr
  obtain rfl := Option.some.inj hr
  rw [rewriteIn_header] at hhdr
  -- the two clients would be one, so the two flows would be one
  have h₁ : k.srcIp = k₀.srcIp := congrArg Header.dstAddr hhdr
  have h₂ : k.srcPort = k₀.srcPort := congrArg Header.dstPort hhdr
  have h₃ : k₀.dstIp = k.dstIp := congrArg NatKey.srcIp hclash
  have h₄ : k₀.dstPort = k.dstPort := congrArg NatKey.srcPort hclash
  have h₅ := congrArg NatKey.proto hclash
  change k₀.proto = k.proto at h₅
  have hkk : k₀ = k := by
    cases k
    cases k₀
    simp_all
  exact hf.key_ne hk he hkk

/-! ### Opening many entries -/

/-- The flows `f 0, …, f (n - 1)` open entries at the pointers `1, …, n`. -/
def opens (f : ℕ → NatKey) (n : ℕ) : List Event :=
  (List.range n).map fun i => .packet 0 (keyFrame (f i)) (success (i + 1))

theorem opens_succ (f : ℕ → NatKey) (n : ℕ) :
    opens f (n + 1) = opens f n ++ [.packet 0 (keyFrame (f n)) (success (n + 1))] := by
  simp [opens, List.range_succ]

/-- **New flows open entries, one port each, and disturb nothing else.** -/
theorem run_opens {f : ℕ → NatKey} (htcp : ∀ i, IsTcpUdp (f i).proto)
    (hd : ∀ i, (f i).dstIp ≠ s.publicIp) (hf : ∀ i, s.fwdHash (f i) = none)
    (hp : ∀ i, s.heap (i + 1) = none) (n : ℕ) (hinj : ∀ i < n, ∀ j < i, f i ≠ f j) :
    ∃ t, Run (SuccessStep E) s (opens f n) t ∧ t.publicIp = s.publicIp ∧
      t.currentPort = nextPort^[n] s.currentPort ∧
      (∀ k, (∀ i < n, k ≠ f i) → t.fwdHash k = s.fwdHash k) ∧
      ∀ q, q = 0 ∨ n < q → t.heap q = s.heap q := by
  induction n with
  | zero => exact ⟨s, .refl, rfl, rfl, fun _ _ => rfl, fun _ _ => rfl⟩
  | succ n ih =>
    obtain ⟨t, hrun, hip, hport, hfwd, hheap⟩ := ih fun i hi => hinj i (by omega)
    have hft : t.fwdHash (f n) = none := by
      rw [hfwd (f n) (hinj n (by omega)), hf n]
    have hpt : t.heap (n + 1) = none := by
      rw [hheap (n + 1) (by omega), hp n]
    have hstep : SuccessStep E t (.packet 0 (keyFrame (f n)) (success (n + 1)))
        (created E 0 (success (n + 1)) t (f n) (n + 1)) :=
      ⟨step_opened (parse_keyFrame (htcp n)) (hip ▸ hd n) hft rfl hpt, by simp [success], rfl, rfl⟩
    refine ⟨created E 0 (success (n + 1)) t (f n) (n + 1), ?_, hip, ?_, ?_, ?_⟩
    · rw [opens_succ]
      exact hrun.snoc hstep
    · rw [Function.iterate_succ_apply', ← hport]
      rfl
    · intro k hk
      rw [created_fwdHash rfl, Function.update_of_ne (hk n (by omega)),
        hfwd k fun i hi => hk i (by omega)]
    · intro q hq
      have hqn : q ≠ n + 1 := by omega
      rw [created_heap, Function.update_of_ne hqn, hheap q (by omega)]

/-! ### The port of a live flow is given away -/

/-- The flow from port `i` of 10.0.0.3 to another server. -/
def scanFlow (i : ℕ) : NatKey :=
  ⟨netAddr 10 0 0 3, netAddr 9 9 9 9, rteCpuToBe16 (BitVec.ofNat 16 i), rteCpuToBe16 80, ipprotoTcp⟩

theorem scanFlow_ne {i j : ℕ} (hi : i < 65536) (hj : j < i) : scanFlow i ≠ scanFlow j := by
  intro h
  have hport := bswap16_injective (congrArg NatKey.srcPort h)
  have hij := congrArg BitVec.toNat hport
  rw [BitVec.toNat_ofNat, BitVec.toNat_ofNat, Nat.mod_eq_of_lt hi, Nat.mod_eq_of_lt (by omega)] at hij
  omega

theorem webFlow_ne_scanFlow (client : U32) (i : ℕ) : webFlow client (netAddr 8 8 8 8) ≠ scanFlow i := by
  intro h
  have hdst : netAddr 8 8 8 8 = netAddr 9 9 9 9 := congrArg NatKey.dstIp h
  revert hdst
  decide

/-- **The round trip fails once the ports have gone around**: without `NoClash`, a flow whose entry has
not expired need not receive its replies. -/
theorem port_reuse_misdelivers :
    ¬ ∀ (E : Env) (ip : U32) (k : NatKey) (port : U16) (t : NatState),
      Sent E (SuccessStep E) ip k port t → RepliesReach E t k port := by
  intro hall
  have hA : SuccessStep ghz (natInit mainPublicIp) (.packet 0 (keyFrame flowA) (success 0))
      (stateA ghz (success 0)) := ⟨step_flowA (success 0) rfl, by simp [success], rfl, rfl⟩
  have hfwdA : ∀ k, k ≠ flowA → (stateA ghz (success 0)).fwdHash k = none := by
    intro k hk
    unfold stateA
    rw [created_fwdHash rfl, Function.update_of_ne hk]
    rfl
  have hheapA : ∀ i, (stateA ghz (success 0)).heap (i + 1) = none := by
    intro i
    unfold stateA
    rw [created_heap, Function.update_of_ne (Nat.succ_ne_zero i)]
    rfl
  obtain ⟨t, hrun, hip, hport, hfwd, hheap⟩ := run_opens (E := ghz) (s := stateA ghz (success 0))
    (f := scanFlow) (fun _ => Or.inl rfl) (fun _ => show netAddr 9 9 9 9 ≠ mainPublicIp by decide)
    (fun i => hfwdA _ (webFlow_ne_scanFlow _ i).symm) hheapA 64510
    (fun i hi j hj => scanFlow_ne (by omega) hj)
  have hfB : t.fwdHash flowB = none := by
    rw [hfwd flowB fun i _ => webFlow_ne_scanFlow _ i, hfwdA flowB (by decide)]
  have hB : SuccessStep ghz t (.packet 0 (keyFrame flowB) (success 64511))
      (created ghz 0 (success 64511) t flowB 64511) := by
    refine ⟨step_opened (parse_webFlow ..) ?_ hfB rfl ?_, by simp [success], rfl, rfl⟩
    · rw [hip]
      show flowB.dstIp ≠ mainPublicIp
      decide
    · rw [hheap 64511 (by omega), hheapA]
  have hall_t : Run (SuccessStep ghz) (natInit mainPublicIp) _ t := (Run.refl.snoc hA).append hrun
  have hA₀ : t.heap 0 = some (freshEntry (natInit mainPublicIp) flowA) := by
    rw [hheap 0 (Or.inl rfl)]
    rfl
  -- the counter has gone around once, so `flowB` is given the port of `flowA`
  have hcycle : nextPort t.currentPort = nextPort minPort := by
    have hA' : (stateA ghz (success 0)).currentPort = nextPort minPort := rfl
    rw [hport, ← Function.iterate_succ_apply' nextPort, hA']
    exact iterate_portCycle inCycle_minPort.nextPort
  have hclash : (freshEntry (natInit mainPublicIp) flowA).revKey = (freshEntry t flowB).revKey := by
    unfold freshEntry
    rw [hcycle, hip]
    rfl
  have hq : (stateA ghz (success 0)).fwdHash flowA = some 0 := by decide
  refine clash_misdelivers (run_fwdExact (hall_t.mono fun _ _ _ h => h.insertStep))
    (run_flowEntries (hall_t.mono fun _ _ _ h => h.1)) hA₀ hfB rfl hclash
    (hall ghz mainPublicIp flowA _ _ ⟨[], 0, keyFrame flowA, success 0, _, natInit mainPublicIp, _, 0,
      .refl, hA, hrun.snoc hB, natProcessPacket_opened (parse_webFlow ..) (by decide) rfl rfl, rfl,
      parse_webFlow .., by decide, rewriteOut_srcPort .., hq, ?_⟩)
  simp [opens]

end DpdkBeginners.Napt
