import DpdkBeginners.L2Forwarding.Defs
import Mathlib.Data.List.Induction

/-!
# What the switch has learned

The table holds, for each address, the port of the last packet that came from it (`macLookup_learned`).  Since
`process_packet` learns before it looks up, the packet at hand counts.  A packet whose destination was last
seen on the port it comes in on is sent back there: `flood_packet` leaves that port out, but forwarding to a
learned port does not.  So a sequence of packets is switched right if and only if it has none of those
(`switches_iff`).
-/

namespace DpdkBeginners.L2Forwarding

open DpdkBeginners.Rte

variable {fs pre post : List Packet} {f : Packet} {mac : EtherAddr} {table : MacTable}

/-! ### The table -/

/-- The port on which an address was last seen as a source. -/
def lastSeen (fs : List Packet) (mac : EtherAddr) : Option U16 :=
  ((fs.filter fun f => f.src = mac).getLast?).map Packet.inPort

theorem lastSeen_concat (fs : List Packet) (f : Packet) (mac : EtherAddr) :
    lastSeen (fs ++ [f]) mac = if f.src = mac then some f.inPort else lastSeen fs mac := by
  unfold lastSeen
  by_cases hsrc : f.src = mac
  · simp [hsrc]
  · simp [hsrc]

theorem processPacket_fst (table : MacTable) (f : Packet) :
    (processPacket table f).1 = macLearn table f.src f.inPort := by
  unfold processPacket
  dsimp only
  cases macLookup (macLearn table f.src f.inPort) f.dst <;> rfl

theorem macLookup_macLearn (table : MacTable) (srcMac : EtherAddr) (port : U16) (mac : EtherAddr) :
    macLookup (macLearn table srcMac port) mac =
      if srcMac = mac then some port else macLookup table mac := by
  have hport : (port.setWidth 64).setWidth 16 = port := by
    rw [BitVec.setWidth_setWidth_of_le _ (by decide), BitVec.setWidth_eq]
  unfold macLookup macLearn rteHashLookupData rteHashAddKeyData
  rw [if_pos rfl]
  by_cases hsrc : srcMac = mac
  · rw [if_pos hsrc, ← hsrc, Function.update_self, Option.map_some, hport]
  · rw [if_neg hsrc, Function.update_of_ne (Ne.symm hsrc)]

/-- **The table** holds the port of the last packet from each address. -/
theorem macLookup_learned (fs : List Packet) (mac : EtherAddr) :
    macLookup (learned fs) mac = lastSeen fs mac := by
  induction fs using List.reverseRecOn with
  | nil => rfl
  | append_singleton fs f ih =>
    rw [learned, List.foldl_append, List.foldl_cons, List.foldl_nil, processPacket_fst,
      macLookup_macLearn, lastSeen_concat]
    exact if_congr Iff.rfl rfl ih

/-! ### Switching -/

/-- Where a packet should go, when its destination was last seen on `seen`. -/
def rightPorts (seen : Option U16) (inPort : U16) : List U16 :=
  match seen with
  | none => allPorts.filter fun p => p ≠ inPort
  | some p => if p = inPort then [] else [p]

/-- Each packet of the sequence goes where it should, and so none leaves through the port it came in on. -/
def Switches (fs : List Packet) : Prop :=
  ∀ pre f post, fs = pre ++ f :: post →
    (processPacket (learned pre) f).2 = rightPorts (lastSeen (pre ++ [f]) f.dst) f.inPort ∧
      f.inPort ∉ (processPacket (learned pre) f).2

theorem processPacket_snd (pre : List Packet) (f : Packet) :
    (processPacket (learned pre) f).2 =
      match lastSeen (pre ++ [f]) f.dst with
      | some p => [p]
      | none => floodPacket f.inPort := by
  have hseen : macLookup (macLearn (learned pre) f.src f.inPort) f.dst = lastSeen (pre ++ [f]) f.dst := by
    rw [macLookup_macLearn, macLookup_learned, lastSeen_concat]
  unfold processPacket
  dsimp only
  rw [hseen]
  cases lastSeen (pre ++ [f]) f.dst <;> rfl

/-- **Switching.**  All packets go where they should if and only if no packet has a destination that was last
seen on the port it comes in on. -/
theorem switches_iff (fs : List Packet) :
    Switches fs ↔
      ∀ pre f post, fs = pre ++ f :: post → lastSeen (pre ++ [f]) f.dst ≠ some f.inPort := by
  refine forall_congr' fun pre => forall_congr' fun f => forall_congr' fun post => ?_
  refine imp_congr_right fun _ => ?_
  rw [processPacket_snd]
  cases lastSeen (pre ++ [f]) f.dst with
  | none =>
    refine iff_of_true ⟨rfl, ?_⟩ (by simp)
    simp [floodPacket]
  | some p =>
    by_cases hp : p = f.inPort
    · simp [rightPorts, hp]
    · simp [rightPorts, hp, Ne.symm hp]

/-- Two stations behind port 1; the second sends to the first. -/
def sharedPort : List Packet := [⟨0xaabbccddee01, 0xaabbccddee03, 1⟩, ⟨0xaabbccddee02, 0xaabbccddee01, 1⟩]

/-- **A packet is reflected.** -/
theorem sharedPort_reflected : ¬ Switches sharedPort := by
  intro h
  have hright := (h [⟨0xaabbccddee01, 0xaabbccddee03, 1⟩] _ [] rfl).2
  exact hright (by decide)

end DpdkBeginners.L2Forwarding
