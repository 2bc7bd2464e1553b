import DpdkBeginners.Pool.InboundFile
import DpdkBeginners.Pool.Version4
import DpdkBeginners.Rte.TxBurst

/-!
# The static NAT of `nat_project/version3`

The table is filled once, from a file or by hand, and then each packet is translated by the entry of its source.
`nat_load_from_file` reads its file as `nat_inbound_load_from_file` of `version5` does (`readLine`), and the checksums
are computed as in `nat_pool_apply` of `version4` (`recalculate4`).

* The program ends when the table cannot be created, or an entry cannot be allocated or inserted (the table is made for
  1024 of them); what these calls return is a parameter (`Found`).
* `nat_add_mapping` does not look at what `inet_pton` returns, so an address that is not valid is what the memory of the
  new entry holds.
* The input by hand is the list of words that `scanf` reads.  At its end `scanf` fails for ever, and the loop does not
  end.

The clock readings and the table of `hash_ips`, of which only the log is made, are left out.
-/

namespace DpdkBeginners.Version3

open DpdkBeginners.Rte DpdkBeginners.Lib DpdkBeginners.Pool

/-- `struct nat_entry`. -/
structure NatEntry where
  privateIp : U32
  publicIp : U32

abbrev NatTable := RteHash U32 NatEntry

/-- What a call of `nat_add_mapping` finds: what `malloc` returns, and whether the insert succeeds. -/
structure Added where
  /-- what the new entry holds, if there is memory for it -/
  memory : Option (U32 × U32)
  inserted : Bool

/-- What the program finds: whether `rte_hash_create` makes the table, and what each call of `nat_add_mapping` finds. -/
structure Found where
  created : Bool
  adds : ℕ → Added

/-- `nat_table_create`; `none` is a call of `rte_exit`. -/
def natTableCreate (created : Bool) : Option NatTable := if created then some rteHashEmpty else none

/-- `nat_add_mapping`; `none` is a call of `rte_exit`. -/
def natAddMapping (x : Added) (ht : NatTable) (privateIp publicIp : List Byte) : Option NatTable :=
  match x.memory with
  | none => none
  | some junk =>
    let entry : NatEntry := ⟨(inetPton privateIp).getD junk.1, (inetPton publicIp).getD junk.2⟩
    if x.inserted = false then none else some (rteHashAddKeyData true ht entry.privateIp entry)

/-! ### Filling the table -/

/-- The loop over the lines that have been read; `count` entries have been made. -/
def natLoad (adds : ℕ → Added) (ht : NatTable) (count : ℕ) : List (List Byte) → Option NatTable
  | [] => some ht
  | line :: lines =>
    match readLine line with
    | none => natLoad adds ht count lines
    | some (privateIp, publicIp) =>
      (natAddMapping (adds count) ht privateIp publicIp).bind fun ht => natLoad adds ht (count + 1) lines

/-- `nat_load_from_file`; a `file` of `none` cannot be opened. -/
def natLoadFromFile (adds : ℕ → Added) (ht : NatTable) : Option (List Byte) → Option NatTable
  | none => some ht
  | some file => natLoad adds ht 0 (reads maxLine file)

/-- `"exit"`. -/
def exit : List Byte := ascii "exit"

/-- The loop that reads mappings from the standard input; `none` is `rte_exit`, or a loop that does not end. -/
def natEnter (adds : ℕ → Added) (ht : NatTable) (count : ℕ) : List (List Byte) → Option NatTable
  | [] => none
  | [privateIp] => if cString privateIp = exit then some ht else none
  | privateIp :: publicIp :: words =>
    if cString privateIp = exit then some ht
    else
      (natAddMapping (adds count) ht (cString privateIp) (cString publicIp)).bind fun ht =>
        natEnter adds ht (count + 1) words

/-- Where `main` takes the mappings from. -/
inductive Source
  | file (contents : Option (List Byte))
  | entered (words : List (List Byte))

/-- The table when the main loop starts. -/
def natTable (found : Found) (src : Source) : Option NatTable :=
  (natTableCreate found.created).bind fun ht =>
    match src with
    | .file contents => natLoadFromFile found.adds ht contents
    | .entered words => natEnter found.adds ht 0 words

/-! ### Packets -/

/-- The body of the loop of `nat_apply`. -/
def natApplyPacket (E : Env) (ht : NatTable) (m : Mbuf) : Mbuf :=
  if ¬ m.IsIpv4 then m
  else
    match rteHashLookupData ht m.srcAddr with
    | none => m
    | some entry => recalculate4 E (m.setSrcAddr entry.publicIp)

/-- `nat_apply`. -/
def natApply (E : Env) (ht : NatTable) (bufs : List Mbuf) : List Mbuf := bufs.map (natApplyPacket E ht)

/-- What an iteration of the main loop receives: the mbufs, what they hold and the answers of the transmit queue. -/
structure Burst (ι : Type*) where
  bufs : List ι
  mtod : ι → Mbuf
  tx : TxQueue ι

/-- An iteration of the main loop: the packets as they are offered, and the calls. -/
def iteration {ι : Type*} (E : Env) (ht : NatTable) (b : Burst ι) : List Mbuf × List (MbufOp ι) :=
  if 0 < b.bufs.length then (natApply E ht (b.bufs.map b.mtod), sendOrFree b.tx b.bufs) else ([], [])

end DpdkBeginners.Version3
