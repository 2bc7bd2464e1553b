import DpdkBeginners.Rte.Bytes
import Mathlib.Data.List.Basic

/-!
# What the programs use of DPDK

* `rte_hash` is a finite map: adding a key that is there overwrites its data, an add that fails
  changes nothing, and deleting a key that is not there changes nothing.
* `rte_timer` is a list of armed timers with their deadlines.  Arming a timer that is armed moves
  its deadline.  A timer is named by the object it is embedded in.
* `Env` is the rest: the frequency of the timer clock and the two checksum functions, which the
  results take as a parameter.  `rteDocumented` is what DPDK documents them to compute.
-/

namespace DpdkBeginners.Rte

/-! ### `rte_hash` -/

abbrev RteHash (κ ν : Type*) := κ → Option ν

section Hash

variable {κ ν : Type*}

/-- `rte_hash_lookup_data`: `none` is the negative return value. -/
abbrev rteHashLookupData (t : RteHash κ ν) (k : κ) : Option ν := t k

/-- `rte_hash_add_key_data`; `ok` says whether the insert succeeds. -/
abbrev rteHashAddKeyData [DecidableEq κ] (ok : Bool) (t : RteHash κ ν) (k : κ) (v : ν) :
    RteHash κ ν :=
  if ok then Function.update t k (some v) else t

abbrev rteHashDelKey [DecidableEq κ] (t : RteHash κ ν) (k : κ) : RteHash κ ν :=
  Function.update t k none

/-- `rte_hash_create` and `rte_hash_reset`. -/
abbrev rteHashEmpty : RteHash κ ν := fun _ => none

end Hash

/-! ### `rte_timer` -/

abbrev RteTimers (π : Type*) := List (π × ℕ)

section Timer

variable {π : Type*} [DecidableEq π] (l : RteTimers π) {p q : π} {d d' : ℕ}

/-- `rte_timer_stop`. -/
def rteTimerStop (p : π) : RteTimers π := l.filter fun x => x.1 ≠ p

/-- `rte_timer_reset` of a `SINGLE` timer, for the deadline `d`. -/
def rteTimerReset (p : π) (d : ℕ) : RteTimers π := rteTimerStop l p ++ [(p, d)]

/-- How many timers of `p` are armed. -/
def armedCount (p : π) : ℕ := (l.map Prod.fst).count p

/-- `p` has an armed timer. -/
def Armed (p : π) : Prop := p ∈ l.map Prod.fst

variable {l}

omit [DecidableEq π] in
theorem armed_iff : Armed l p ↔ ∃ d, (p, d) ∈ l := by simp [Armed]

theorem armedCount_pos : 0 < armedCount l p ↔ Armed l p := List.count_pos_iff

theorem mem_rteTimerStop : (q, d) ∈ rteTimerStop l p ↔ (q, d) ∈ l ∧ q ≠ p := by
  simp [rteTimerStop]

theorem mem_rteTimerReset :
    (q, d) ∈ rteTimerReset l p d' ↔ ((q, d) ∈ l ∧ q ≠ p) ∨ (q = p ∧ d = d') := by
  simp [rteTimerReset, mem_rteTimerStop]

theorem armedCount_rteTimerStop :
    armedCount (rteTimerStop l p) q = if q = p then 0 else armedCount l q := by
  unfold armedCount rteTimerStop
  induction l with
  | nil => simp
  | cons x l ih =>
    by_cases hx : x.1 = p
    · rw [List.filter_cons_of_neg (by simpa using hx), ih, List.map_cons, List.count_cons]
      by_cases hq : q = p
      · simp [hq]
      · simp [hq, hx, Ne.symm hq]
    · rw [List.filter_cons_of_pos (by simpa using hx), List.map_cons, List.map_cons,
        List.count_cons, List.count_cons, ih]
      by_cases hq : q = p
      · simp [hq, hx]
      · simp [hq]

theorem armedCount_rteTimerReset :
    armedCount (rteTimerReset l p d) q = if q = p then 1 else armedCount l q := by
  have hsplit : armedCount (rteTimerReset l p d) q =
      armedCount (rteTimerStop l p) q + List.count q [p] := by
    simp [armedCount, rteTimerReset]
  rw [hsplit, armedCount_rteTimerStop]
  by_cases hq : q = p
  · simp [hq]
  · simp [hq, Ne.symm hq]

/-- The timers whose callbacks `rte_timer_manage` runs at the clock reading `t`. -/
def due (l : RteTimers π) (t : ℕ) : List π := (l.filter fun x => x.2 ≤ t).map Prod.fst

omit [DecidableEq π] in
theorem mem_due {t : ℕ} : p ∈ due l t ↔ ∃ d, (p, d) ∈ l ∧ d ≤ t := by simp [due]

theorem nodup_due (h : ∀ p, armedCount l p ≤ 1) (t : ℕ) : (due l t).Nodup := by
  have hl : (l.map Prod.fst).Nodup := List.nodup_iff_count.2 h
  exact hl.sublist (List.filter_sublist.map Prod.fst)

end Timer

/-! ### The environment -/

/-- The frequency of the timer clock and the checksum functions.  A checksum is computed from the
bytes of the packet as they are, given where the IPv4 header and the TCP or UDP header start. -/
structure Env where
  /-- `rte_get_timer_hz` -/
  timerHz : U64
  /-- `rte_ipv4_cksum` -/
  ipv4Cksum : Bytes → ℕ → U16
  /-- `rte_ipv4_udptcp_cksum` -/
  ipv4UdptcpCksum : Bytes → ℕ → ℕ → U16

/-- The sum of the `n` bytes from `o` on, as 16-bit words; an odd last byte is a word of its own. -/
def rawSum (d : Bytes) (o : ℕ) : ℕ → ℕ
  | 0 => 0
  | 1 => (d o).toNat
  | n + 2 => (load16 d o).toNat + rawSum d (o + 2) n

/-- The one's-complement sum: the carries are added back in. -/
def foldSum (x : ℕ) : U16 := BitVec.ofNat 16 (if x = 0 then 0 else (x - 1) % 65535 + 1)

/-- **The documented environment**: the complement of the one's-complement sum of the header, and
of the TCP or UDP message with its pseudo-header, where a UDP checksum of zero is sent as `0xffff`. -/
def rteDocumented (timerHz : U64) : Env where
  timerHz := timerHz
  ipv4Cksum d ip := ~~~ foldSum (rawSum d ip (4 * ((d ip).toNat % 16)))
  ipv4UdptcpCksum d ip l4 :=
    let hdrLen := 4 * ((d ip).toNat % 16)
    let l3Len := (rteBeToCpu16 (load16 d (ip + 2))).toNat
    let pseudo := rawSum d (ip + 12) 8 + (rteCpuToBe16 ((d (ip + 9)).setWidth 16)).toNat +
      (rteCpuToBe16 (BitVec.ofNat 16 (l3Len - hdrLen))).toNat
    let ck := ~~~ foldSum (rawSum d l4 (l3Len - hdrLen) + pseudo)
    if l3Len < hdrLen then 0xffff else if ck = 0 ∧ d (ip + 9) = 17 then 0xffff else ck

/-- The documented environment with a timer clock of 1 GHz. -/
def ghz : Env := rteDocumented 1000000000

end DpdkBeginners.Rte
