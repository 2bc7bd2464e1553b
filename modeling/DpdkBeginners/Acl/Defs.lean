import DpdkBeginners.Lib.Select
import DpdkBeginners.Rte.Mbuf
import DpdkBeginners.Rte.TxBurst
import Mathlib.Data.Nat.Basic

/-!
# The filters of `ACL/l2fwd_acl` and `ACL/exp`

A packet is looked up in an access control list of one rule.  `l2fwd_acl` sends it back on its port if the rule
matches; `exp` looks behind a VLAN tag, prints whether the rule matches, and frees the packet.

* `l2fwd_acl` swaps the bytes of the address of its rule and of each field of its key, and `exp` swaps none.
* `rte_acl_classify` is a parameter, and `Documented` is what DPDK says of it: an input is a buffer of which the fields
  are read in network order, a rule is in host order, and the result is the user data of the matching rule of the
  highest priority, or zero.
* The key is a buffer, so that the byte order in which the program stores it is the one that `rte_acl` reads.

The field index is the position in the list, and the input index, which says what fields the library loads
together, is left out; so are the ports that `portmask` selects.
-/

namespace DpdkBeginners.Acl

open DpdkBeginners.Rte DpdkBeginners.Lib

/-! ### `rte_acl` -/

/-- `RTE_ACL_FIELD_TYPE_...`. -/
inductive FieldType
  | mask
  | range
  | bitmask

/-- `struct rte_acl_field_def`. -/
structure FieldDef where
  type : FieldType
  size : ℕ
  offset : ℕ

/-- `struct rte_acl_field`. -/
structure Field where
  value : U32
  maskRange : U32

/-- A rule, as `RTE_ACL_RULE_DEF` defines it. -/
structure Rule where
  categoryMask : U32
  priority : ℕ
  userdata : U32
  field : List Field

/-- A field of the input, which is in network order. -/
def FieldDef.input (d : FieldDef) (key : Bytes) : U32 :=
  match d.size with
  | 1 => (key d.offset).setWidth 32
  | 2 => (rteBeToCpu16 (load16 key d.offset)).setWidth 32
  | _ => rteBeToCpu32 (load32 key d.offset)

/-- A field of a rule matches one of the input: in the masked bits, in the first bits or as a range. -/
def FieldDef.Matches (d : FieldDef) (f : Field) (input : U32) : Prop :=
  match d.type with
  | .bitmask => input &&& f.maskRange = f.value &&& f.maskRange
  | .mask => input >>> (8 * d.size - f.maskRange.toNat) = f.value >>> (8 * d.size - f.maskRange.toNat)
  | .range => f.value ≤ input ∧ input ≤ f.maskRange

instance (d : FieldDef) (f : Field) (input : U32) : Decidable (d.Matches f input) :=
  match d with
  | ⟨.bitmask, _, _⟩ => inferInstanceAs (Decidable (_ = _))
  | ⟨.mask, _, _⟩ => inferInstanceAs (Decidable (_ = _))
  | ⟨.range, _, _⟩ => inferInstanceAs (Decidable (_ ∧ _))

/-- A rule of the first category matches if all its fields do. -/
def Rule.Matches (defs : List FieldDef) (r : Rule) (key : Bytes) : Prop :=
  r.categoryMask &&& 1 ≠ 0 ∧ ∀ x ∈ defs.zip r.field, x.1.Matches x.2 (x.1.input key)

instance (defs : List FieldDef) (r : Rule) (key : Bytes) : Decidable (r.Matches defs key) :=
  inferInstanceAs (Decidable (_ ∧ _))

/-- `rte_acl_classify`, of one input and one category, once the rules have been built into the context. -/
def Documented (defs : List FieldDef) (rules : List Rule) (rteAclClassify : Bytes → U32) : Prop :=
  ∀ key, ∃ best, Selects rules (·.Matches defs key) Rule.priority best ∧
    rteAclClassify key = (best.map Rule.userdata).getD 0

/-! ### The program -/

/-- `field_defs`, with the offsets of `struct pkt_key`. -/
def fieldDefs : List FieldDef :=
  [⟨.bitmask, 1, 0⟩, ⟨.mask, 4, 4⟩, ⟨.mask, 4, 8⟩, ⟨.range, 2, 12⟩, ⟨.range, 2, 14⟩]

/-- A rule for TCP packets of one source. -/
def tcpFrom (src : U32) : Rule where
  categoryMask := 1
  priority := 10
  userdata := 1
  field := [⟨ipprotoTcp.setWidth 32, 0xff⟩, ⟨src, 32⟩, ⟨0, 0⟩, ⟨0, 65535⟩, ⟨0, 65535⟩]

/-- The ports of a key, of a message that starts at `l4`. -/
def setPorts (swap16 : U16 → U16) (d : Bytes) (l4 : ℕ) (key : Bytes) : Bytes :=
  store16 (store16 key 12 (swap16 (load16 d l4))) 14 (swap16 (load16 d (l4 + 2)))

/-- The `struct pkt_key` of a packet whose IPv4 header starts at `ip`. -/
def pktKey (swap16 : U16 → U16) (swap32 : U32 → U32) (d : Bytes) (ip : ℕ) : Bytes :=
  let proto := d (ip + 9)
  let key := Function.update (fun _ => 0) 0 proto
  let key := store32 key 4 (swap32 (load32 d (ip + 12)))
  let key := store32 key 8 (swap32 (load32 d (ip + 16)))
  let l4 := ip + (d ip).toNat % 16 * 4
  if proto = ipprotoTcp then setPorts swap16 d l4 key
  else if proto = ipprotoUdp then setPorts swap16 d l4 key
  else key

/-! #### `l2fwd_acl` -/

/-- `init_acl`. -/
def initAcl : List Rule := [tcpFrom (rteBeToCpu32 (rteIpv4 172 17 166 200))]

variable {ι : Type*} (rteAclClassify : Bytes → U32)

/-- The body of the loop over the packets. -/
def forward (tx : TxQueue ι) (mtod : ι → Mbuf) (m : ι) : MbufOp ι :=
  if ¬ (mtod m).IsIpv4 then .free m
  else if rteAclClassify (pktKey rteBeToCpu16 rteBeToCpu32 (mtod m).data 14) ≠ 0 then tx.send [m]
  else .free m

/-- What an iteration of the main loop receives from a port: the mbufs, what they hold and the answers of the
transmit queue. -/
structure Burst (ι : Type*) where
  bufs : List ι
  mtod : ι → Mbuf
  tx : TxQueue ι

/-- An iteration of the main loop. -/
def iteration (b : Burst ι) : List (MbufOp ι) := b.bufs.map (forward rteAclClassify b.tx b.mtod)

/-! #### `exp` -/

/-- The rule of `main`. -/
def expRules : List Rule := [tcpFrom (rteIpv4 172 17 166 200)]

/-- `eth_type` and the offset of `ptr`, behind a VLAN tag if there is one. -/
def expParse (m : Mbuf) : U16 × ℕ :=
  if m.etherType = rteCpuToBe16 rteEtherTypeVlan then
    let ptr := 14 + 4
    (load16 m.data (ptr - 2), ptr)
  else (m.etherType, 14)

/-- The body of the loop over the packets: whether a match is printed, and `none` for a packet that is freed at
once. -/
def expMatch (m : Mbuf) : Option Bool :=
  let (etherType, ptr) := expParse m
  if etherType ≠ rteCpuToBe16 rteEtherTypeIpv4 then none
  else some (rteAclClassify (pktKey id id m.data ptr) ≠ 0)

end DpdkBeginners.Acl
