import DpdkBeginners.Rte.Env

/-!
# The learning switch of `l2_forwarding`

A packet is its two addresses and the port it comes in on; `process_packet` learns the port of the source and
prints the ports that the packet is sent to.  Inserts into the table succeed.  What else is printed is left
out.
-/

namespace DpdkBeginners.L2Forwarding

open DpdkBeginners.Rte

/-- `MAX_PORTS`. -/
def maxPorts : ℕ := 4

abbrev EtherAddr := BitVec 48

/-- The MAC table; a port is stored as a pointer. -/
abbrev MacTable := RteHash EtherAddr U64

/-- The arguments of `process_packet`. -/
structure Packet where
  src : EtherAddr
  dst : EtherAddr
  inPort : U16
  deriving DecidableEq

/-- `create_mac_table`. -/
def createMacTable : MacTable := rteHashEmpty

/-- `mac_learn`. -/
def macLearn (table : MacTable) (srcMac : EtherAddr) (port : U16) : MacTable :=
  rteHashAddKeyData true table srcMac (port.setWidth 64)

/-- `mac_lookup`; `none` is the return value -1. -/
def macLookup (table : MacTable) (dstMac : EtherAddr) : Option U16 :=
  (rteHashLookupData table dstMac).map fun lookup => lookup.setWidth 16

/-- The ports of the switch. -/
def allPorts : List U16 := (List.range maxPorts).map (BitVec.ofNat 16)

/-- `flood_packet`: the ports that it prints. -/
def floodPacket (inPort : U16) : List U16 := allPorts.filter fun p => p ≠ inPort

/-- `process_packet`: the table after it, and the ports that the packet is sent to. -/
def processPacket (table : MacTable) (f : Packet) : MacTable × List U16 :=
  let table := macLearn table f.src f.inPort
  match macLookup table f.dst with
  | some outPort => (table, [outPort])
  | none => (table, floodPacket f.inPort)

/-- The table after some packets. -/
def learned (fs : List Packet) : MacTable := fs.foldl (fun table f => (processPacket table f).1) createMacTable

end DpdkBeginners.L2Forwarding
