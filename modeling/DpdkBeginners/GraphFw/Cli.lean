import DpdkBeginners.GraphFw.Defs
import DpdkBeginners.Lib.Stdio

/-!
# The command line of `dpdk-graph-fw`

`run_cli` reads the standard input with a buffer of 64 bytes and acts on what is in the buffer, until that
starts with `quit`.  It does not look at what `fgets` returns, so at the end of the input it acts on the last
piece for ever (`loop_running`), and a line that does not fit is acted on piece by piece.  `ends_iff` says for
which inputs it returns and acts on no complete line twice.
-/

namespace DpdkBeginners.GraphFw

open DpdkBeginners.Rte DpdkBeginners.Lib

/-! ### The loop -/

/-- `sizeof(cmd) - 1`. -/
def cmdMax : ℕ := 63

/-- The branches of `run_cli`; the last one is the list of commands that it prints. -/
inductive Command
  | enableFirewall
  | disableFirewall
  | showStats
  | quit
  | help
  deriving DecidableEq

/-- `strncmp(cmd, word, strlen(word)) == 0`. -/
def startsWith (cmd : List Byte) (word : String) : Bool := (ascii word).isPrefixOf cmd

/-- The command in the buffer. -/
def command (cmd : List Byte) : Command :=
  if startsWith cmd "enable firewall" then .enableFirewall
  else if startsWith cmd "disable firewall" then .disableFirewall
  else if startsWith cmd "show stats" then .showStats
  else if startsWith cmd "quit" then .quit
  else .help

/-- The buffer of `run_cli`, what is left of the standard input and the flags.  `lineNo` is the number of
newlines that have been read, and `line` the number of the line that the buffer comes from, if any has been
read. -/
structure Cli where
  cmd : List Byte
  stdin : List Byte
  firewallEnabled : Bool
  appRunning : Bool
  line : Option ℕ
  lineNo : ℕ
  deriving DecidableEq

/-- The start of `run_cli`.  What is in the buffer is not known. -/
def runCli (cmd stdin : List Byte) : Cli := ⟨cmd, stdin, false, true, none, 0⟩

/-- `fgets(cmd, sizeof(cmd), stdin)`: at the end of the input the buffer stays as it is. -/
def readCmd (c : Cli) : Cli :=
  let (piece, rest) := fgets cmdMax c.stdin
  if piece = [] then c
  else
    { c with
      cmd := piece ++ 0 :: c.cmd.drop (piece.length + 1)
      stdin := rest
      line := some c.lineNo
      lineNo := c.lineNo + piece.count newline }

/-- What a command does to the flags. -/
def act (c : Cli) : Cli :=
  match command c.cmd with
  | .enableFirewall => { c with firewallEnabled := true }
  | .disableFirewall => { c with firewallEnabled := false }
  | .quit => { c with appRunning := false }
  | _ => c

/-- The body of the loop. -/
def iteration (c : Cli) : Cli := act (readCmd c)

/-- `n` iterations of the loop, or all when it ends before. -/
def loop : ℕ → Cli → Cli
  | 0, c => c
  | n + 1, c => if c.appRunning then loop n (iteration c) else c

/-- The lines that these iterations act on. -/
def trace : ℕ → Cli → List (Option ℕ)
  | 0, _ => []
  | n + 1, c => if c.appRunning then (iteration c).line :: trace n (iteration c) else []

/-- `run_cli` returns. -/
def Returns (c : Cli) : Prop := ∃ n, (loop n c).appRunning = false

/-- `run_cli` returns, and has not acted on a complete line more than once. -/
def Ends (cmd stdin : List Byte) : Prop :=
  Returns (runCli cmd stdin) ∧
    ∀ n, ∀ k < stdin.count newline, (trace n (runCli cmd stdin)).count (some k) ≤ 1

/-- The input starts with `quit`, or with lines that fit and then `quit`, or the pieces in which its last
line is read, when that has no newline, are followed by `quit`. -/
inductive Quits : List Byte → Prop
  | now {f : List Byte} : ascii "quit" <+: f → Quits f
  | line {l f : List Byte} : newline ∉ l → l.length < cmdMax → Quits f → Quits (l ++ newline :: f)
  | lastLine {f : List Byte} (i : ℕ) :
    newline ∉ f → ascii "quit" <+: f.drop (i * cmdMax) → Quits f

variable {c : Cli} {cmd f l rest : List Byte}

/-! ### One iteration -/

@[simp] theorem act_stdin (c : Cli) : (act c).stdin = c.stdin := by
  unfold act
  split <;> rfl

@[simp] theorem act_cmd (c : Cli) : (act c).cmd = c.cmd := by
  unfold act
  split <;> rfl

@[simp] theorem act_line (c : Cli) : (act c).line = c.line := by
  unfold act
  split <;> rfl

@[simp] theorem act_lineNo (c : Cli) : (act c).lineNo = c.lineNo := by
  unfold act
  split <;> rfl

theorem command_eq_quit : command cmd = .quit ↔ ascii "quit" <+: cmd := by
  unfold command startsWith
  simp only [List.isPrefixOf_iff_prefix]
  constructor
  · intro h
    split_ifs at h with h₁ h₂ h₃ h₄
    exact h₄
  · rintro ⟨t, rfl⟩
    rw [if_neg (by simp [ascii]), if_neg (by simp [ascii]), if_neg (by simp [ascii]),
      if_pos (List.prefix_append _ _)]

theorem act_appRunning (hr : c.appRunning = true) :
    (act c).appRunning = true ↔ ¬ ascii "quit" <+: c.cmd := by
  rw [← command_eq_quit]
  unfold act
  split <;> simp_all

theorem readCmd_eof (h : c.stdin = []) : readCmd c = c := by
  unfold readCmd
  rw [h]
  rfl

theorem readCmd_eq (h : c.stdin ≠ []) :
    readCmd c =
      { c with
        cmd := (fgets cmdMax c.stdin).1 ++ 0 :: c.cmd.drop ((fgets cmdMax c.stdin).1.length + 1)
        stdin := (fgets cmdMax c.stdin).2
        line := some c.lineNo
        lineNo := c.lineNo + (fgets cmdMax c.stdin).1.count newline } :=
  if_neg (fgets_eq_nil.not.2 h)

theorem iteration_stdin (h : c.stdin ≠ []) : (iteration c).stdin = (fgets cmdMax c.stdin).2 := by
  rw [iteration, act_stdin, readCmd_eq h]

theorem iteration_line (h : c.stdin ≠ []) : (iteration c).line = some c.lineNo := by
  rw [iteration, act_line, readCmd_eq h]

theorem iteration_lineNo (h : c.stdin ≠ []) :
    (iteration c).lineNo = c.lineNo + (fgets cmdMax c.stdin).1.count newline := by
  rw [iteration, act_lineNo, readCmd_eq h]

theorem quit_iteration (h : c.stdin ≠ []) :
    ascii "quit" <+: (iteration c).cmd ↔ ascii "quit" <+: c.stdin := by
  rw [iteration, act_cmd, readCmd_eq h]
  exact (prefix_append_zero (by decide)).trans (prefix_fgets (by decide) (by decide))

theorem iteration_running (hr : c.appRunning = true) (h : c.stdin ≠ []) :
    (iteration c).appRunning = true ↔ ¬ ascii "quit" <+: c.stdin := by
  have hread : (readCmd c).appRunning = true := by
    rw [readCmd_eq h]
    exact hr
  rw [← quit_iteration h, iteration, act_appRunning hread, act_cmd]

theorem iteration_fits (hc : c.stdin = l ++ newline :: rest) (hl : newline ∉ l)
    (hlen : l.length < cmdMax) :
    (iteration c).stdin = rest ∧ (iteration c).lineNo = c.lineNo + 1 := by
  have h : c.stdin ≠ [] := by simp [hc]
  rw [iteration_stdin h, iteration_lineNo h, hc, fgets_line hl hlen]
  refine ⟨rfl, ?_⟩
  rw [List.count_append, List.count_eq_zero_of_not_mem hl]
  rfl

theorem iteration_part (hc : c.stdin = l ++ rest) (hl : newline ∉ l) (hlen : cmdMax ≤ l.length) :
    (iteration c).stdin = l.drop cmdMax ++ rest ∧ (iteration c).lineNo = c.lineNo := by
  have hne : l ≠ [] := by
    rintro rfl
    simp [cmdMax] at hlen
  have h : c.stdin ≠ [] := by simp [hc, hne]
  have hpiece : newline ∉ l.take cmdMax := fun hmem => hl (List.mem_of_mem_take hmem)
  rw [iteration_stdin h, iteration_lineNo h, hc, fgets_part hl hlen]
  exact ⟨rfl, by rw [List.count_eq_zero_of_not_mem hpiece, Nat.add_zero]⟩

theorem iteration_last (h : c.stdin ≠ []) (hl : newline ∉ c.stdin) :
    (iteration c).stdin = c.stdin.drop cmdMax ∧ (iteration c).lineNo = c.lineNo := by
  by_cases hlen : cmdMax ≤ c.stdin.length
  · have hpart := iteration_part (List.append_nil c.stdin).symm hl hlen
    rwa [List.append_nil] at hpart
  · rw [iteration_stdin h, iteration_lineNo h, fgets_last hl (by omega),
      List.drop_of_length_le (by omega), List.count_eq_zero_of_not_mem hl]
    exact ⟨rfl, rfl⟩

/-! ### When the loop does not end -/

theorem loop_succ (hr : c.appRunning = true) (n : ℕ) : loop (n + 1) c = loop n (iteration c) :=
  if_pos hr

theorem trace_succ (hr : c.appRunning = true) (n : ℕ) :
    trace (n + 1) c = (iteration c).line :: trace n (iteration c) :=
  if_pos hr

theorem trace_stopped (hr : c.appRunning = false) (n : ℕ) : trace n c = [] := by
  cases n with
  | zero => rfl
  | succ n => exact if_neg (by simp [hr])

/-- **At the end of the input** the loop goes on for ever, unless the buffer happens to start with `quit`. -/
theorem loop_running (hr : c.appRunning = true) (h : c.stdin = [])
    (hq : ¬ ascii "quit" <+: c.cmd) (n : ℕ) : (loop n c).appRunning = true := by
  induction n generalizing c with
  | zero => exact hr
  | succ n ih =>
    have hiter : iteration c = act c := by rw [iteration, readCmd_eof h]
    rw [loop_succ hr, hiter]
    exact ih ((act_appRunning hr).2 hq) (by rw [act_stdin, h]) (by rwa [act_cmd])

theorem returns_iff (hr : c.appRunning = true) : Returns c ↔ Returns (iteration c) := by
  constructor
  · rintro ⟨n, hn⟩
    cases n with
    | zero => exact absurd hr (by simpa [loop] using hn)
    | succ n => exact ⟨n, by rwa [loop_succ hr] at hn⟩
  · rintro ⟨n, hn⟩
    exact ⟨n + 1, by rwa [loop_succ hr]⟩

theorem not_returns_eof (hr : c.appRunning = true) (h : c.stdin = [])
    (hq : ¬ ascii "quit" <+: c.cmd) : ¬ Returns c := by
  rintro ⟨n, hn⟩
  rw [loop_running hr h hq n] at hn
  cases hn

/-- **While a loop that returns finds no `quit`** there is something left to read. -/
theorem returns_iteration (hr : c.appRunning = true) (h : c.stdin ≠ []) (hret : Returns c)
    (hq : ¬ ascii "quit" <+: c.stdin) :
    (iteration c).appRunning = true ∧ (iteration c).stdin ≠ [] ∧ Returns (iteration c) := by
  have hrun := (iteration_running hr h).2 hq
  have hret' := (returns_iff hr).1 hret
  refine ⟨hrun, fun heof => ?_, hret'⟩
  exact not_returns_eof hrun heof (fun hbuf => hq ((quit_iteration h).1 hbuf)) hret'

/-- A loop that returns finds `quit` at the head of a piece of the last line. -/
theorem quit_of_returns (hr : c.appRunning = true) (h : c.stdin ≠ []) (hl : newline ∉ c.stdin)
    (hret : Returns c) : ∃ i, ascii "quit" <+: c.stdin.drop (i * cmdMax) := by
  induction hlen : c.stdin.length using Nat.strongRecOn generalizing c with
  | ind len ih =>
    by_cases hq : ascii "quit" <+: c.stdin
    · exact ⟨0, by simpa using hq⟩
    · obtain ⟨hrun, hne, hret'⟩ := returns_iteration hr h hret hq
      obtain ⟨hstdin, -⟩ := iteration_last h hl
      have hpos : 0 < c.stdin.length := List.length_pos_iff.2 h
      have hshort : (iteration c).stdin.length < len := by
        rw [hstdin, List.length_drop, hlen]
        exact Nat.sub_lt (hlen ▸ hpos) (by decide)
      have hl' : newline ∉ (iteration c).stdin := by
        rw [hstdin]
        exact fun hmem => hl (List.mem_of_mem_drop hmem)
      obtain ⟨i, hi⟩ := ih _ hshort hrun hne hl' hret' rfl
      refine ⟨i + 1, ?_⟩
      rwa [hstdin, List.drop_drop, Nat.add_comm, ← Nat.succ_mul] at hi

/-- What a loop has read that returns and acts on no complete line twice. -/
theorem quits_of_ends (hr : c.appRunning = true) (h : c.stdin ≠ []) (hret : Returns c)
    (honce : ∀ n k, c.lineNo ≤ k → k < c.lineNo + c.stdin.count newline →
      (trace n c).count (some k) ≤ 1) : Quits c.stdin := by
  induction hlen : c.stdin.length using Nat.strongRecOn generalizing c with
  | ind len ih =>
    by_cases hq : ascii "quit" <+: c.stdin
    · exact .now hq
    obtain ⟨hrun, hne, hret'⟩ := returns_iteration hr h hret hq
    by_cases hmem : newline ∈ c.stdin
    · obtain ⟨l, rest, hc, hl⟩ := List.eq_append_cons_of_mem hmem
      have hcount : c.stdin.count newline = rest.count newline + 1 := by
        rw [hc, List.count_append, List.count_eq_zero_of_not_mem hl, List.count_cons_self,
          Nat.zero_add]
      by_cases hfits : l.length < cmdMax
      · -- the line is acted on once, and the loop goes on behind it
        obtain ⟨hstdin, hlineNo⟩ := iteration_fits hc hl hfits
        have hshort : (iteration c).stdin.length < len := by
          rw [hstdin, ← hlen, hc, List.length_append, List.length_cons]
          omega
        have hrest := ih _ hshort hrun hne hret' (fun n k hk hk' => ?_) rfl
        · rw [hstdin] at hrest
          exact hc ▸ .line hl hfits hrest
        · rw [hlineNo] at hk hk'
          rw [hstdin] at hk'
          have hn := honce (n + 1) k (by omega) (by omega)
          rw [trace_succ hr] at hn
          exact (List.count_le_count_cons).trans hn
      · -- its second piece is acted on, too
        obtain ⟨-, hlineNo⟩ := iteration_part hc hl (by omega)
        have htwice := honce 2 c.lineNo le_rfl (by omega)
        rw [trace_succ hr, trace_succ hrun, iteration_line h, iteration_line hne, hlineNo] at htwice
        simp [trace] at htwice
    · obtain ⟨i, hi⟩ := quit_of_returns hr h hmem hret
      exact .lastLine i hmem hi

/-! ### When it ends -/

/-- From `c` on, the loop ends, it acts on lines that are left, and on each complete one at most once. -/
structure EndsFrom (c : Cli) : Prop where
  returns : Returns c
  later : ∀ n, ∀ x ∈ trace n c, ∃ k, c.lineNo ≤ k ∧ x = some k
  once : ∀ n k, c.lineNo ≤ k → k < c.lineNo + c.stdin.count newline →
    (trace n c).count (some k) ≤ 1

theorem EndsFrom.count_eq_zero (h : EndsFrom c) {k : ℕ} (hk : k < c.lineNo) (n : ℕ) :
    (trace n c).count (some k) = 0 := by
  refine List.count_eq_zero_of_not_mem fun hmem => ?_
  obtain ⟨j, hj, heq⟩ := h.later n _ hmem
  obtain rfl := Option.some.inj heq
  omega

theorem endsFrom_quit (hr : c.appRunning = true) (h : c.stdin ≠ []) (hq : ascii "quit" <+: c.stdin) :
    EndsFrom c := by
  have hstop : (iteration c).appRunning = false := by
    rw [← Bool.not_eq_true, iteration_running hr h]
    exact fun h' => h' hq
  have htrace : ∀ n, trace (n + 1) c = [some c.lineNo] := by
    intro n
    rw [trace_succ hr, trace_stopped hstop, iteration_line h]
  refine ⟨⟨1, by rwa [loop_succ hr]⟩, fun n x hx => ?_, fun n k _ _ => ?_⟩
  · cases n with
    | zero => simp [trace] at hx
    | succ n =>
      rw [htrace, List.mem_singleton] at hx
      exact ⟨c.lineNo, le_rfl, hx⟩
  · cases n with
    | zero => simp [trace]
    | succ n =>
      rw [htrace]
      exact List.count_le_length

/-- A piece without `quit` may be followed by others, if it is the end of its line or that is not complete. -/
theorem endsFrom_iteration (hr : c.appRunning = true) (h : c.stdin ≠ [])
    (hnext : EndsFrom (iteration c)) (hnew : c.lineNo < (iteration c).lineNo ∨ newline ∉ c.stdin) :
    EndsFrom c := by
  have hlineNo := iteration_lineNo h
  have htotal : (iteration c).lineNo + (iteration c).stdin.count newline =
      c.lineNo + c.stdin.count newline := by
    have happend := congrArg (List.count newline) (fgets_append cmdMax c.stdin)
    rw [List.count_append] at happend
    rw [hlineNo, iteration_stdin h]
    omega
  refine ⟨(returns_iff hr).2 hnext.returns, fun n x hx => ?_, fun n k hk hk' => ?_⟩
  · cases n with
    | zero => simp [trace] at hx
    | succ n =>
      rw [trace_succ hr, iteration_line h] at hx
      rcases List.mem_cons.1 hx with rfl | hx
      · exact ⟨c.lineNo, le_rfl, rfl⟩
      · obtain ⟨k, hk, rfl⟩ := hnext.later n x hx
        exact ⟨k, by omega, rfl⟩
  · cases n with
    | zero => simp [trace]
    | succ n =>
      rw [trace_succ hr, iteration_line h]
      rcases hnew with hnew | hnew
      · by_cases hlt : k < (iteration c).lineNo
        · rw [List.count_cons, hnext.count_eq_zero hlt]
          split_ifs <;> omega
        · have hne : some c.lineNo ≠ some k := by
            intro heq
            obtain rfl := Option.some.inj heq
            exact hlt hnew
          rw [List.count_cons_of_ne hne]
          exact hnext.once n k (by omega) (by omega)
      · rw [List.count_eq_zero_of_not_mem hnew] at hk'
        omega

theorem quit_ne_nil (hq : ascii "quit" <+: f) : f ≠ [] := by
  rintro rfl
  exact absurd hq (by decide)

theorem endsFrom_of_lastLine (i : ℕ) (hr : c.appRunning = true) (hl : newline ∉ c.stdin)
    (hi : ascii "quit" <+: c.stdin.drop (i * cmdMax)) : EndsFrom c := by
  induction i generalizing c with
  | zero =>
    rw [Nat.zero_mul, List.drop_zero] at hi
    exact endsFrom_quit hr (quit_ne_nil hi) hi
  | succ i ih =>
    have h : c.stdin ≠ [] := by
      intro h
      rw [h, List.drop_nil] at hi
      exact quit_ne_nil hi rfl
    by_cases hq : ascii "quit" <+: c.stdin
    · exact endsFrom_quit hr h hq
    · obtain ⟨hstdin, -⟩ := iteration_last h hl
      refine endsFrom_iteration hr h (ih ((iteration_running hr h).2 hq) ?_ ?_) (.inr hl)
      · rw [hstdin]
        exact fun hmem => hl (List.mem_of_mem_drop hmem)
      · rwa [hstdin, List.drop_drop, Nat.add_comm, ← Nat.succ_mul]

theorem endsFrom_of_quits (hf : Quits f) (hr : c.appRunning = true) (hc : c.stdin = f) :
    EndsFrom c := by
  induction hf generalizing c with
  | now hq => exact endsFrom_quit hr (hc ▸ quit_ne_nil hq) (hc ▸ hq)
  | line hl hfits _ ih =>
    have h : c.stdin ≠ [] := by simp [hc]
    by_cases hq : ascii "quit" <+: c.stdin
    · exact endsFrom_quit hr h hq
    · obtain ⟨hstdin, hlineNo⟩ := iteration_fits hc hl hfits
      exact endsFrom_iteration hr h (ih ((iteration_running hr h).2 hq) hstdin) (.inl (by omega))
  | lastLine i hl hi => exact endsFrom_of_lastLine i hr (hc ▸ hl) (hc ▸ hi)

/-- **`run_cli` returns and acts on each complete line at most once** exactly if the input has a `quit` that
it finds, and no line before it that is too long. -/
theorem ends_iff (cmd f : List Byte) :
    Ends cmd f ↔ f = [] ∧ ascii "quit" <+: cmd ∨ Quits f := by
  constructor
  · rintro ⟨hret, honce⟩
    by_cases hf : f = []
    · subst hf
      refine .inl ⟨rfl, ?_⟩
      by_contra hq
      exact not_returns_eof rfl rfl hq hret
    · refine .inr (quits_of_ends (c := runCli cmd f) rfl hf hret fun n k _ hk => honce n k ?_)
      rwa [show (runCli cmd f).lineNo = 0 from rfl, Nat.zero_add] at hk
  · rintro (⟨rfl, hq⟩ | hf)
    · have hstop : (iteration (runCli cmd [])).appRunning = false := by
        rw [← Bool.not_eq_true, iteration, readCmd_eof rfl, act_appRunning rfl]
        exact fun h => h hq
      exact ⟨⟨1, hstop⟩, fun n k hk => absurd hk (by simp)⟩
    · have h := endsFrom_of_quits (c := runCli cmd f) hf rfl rfl
      refine ⟨h.returns, fun n k hk => h.once n k (Nat.zero_le k) ?_⟩
      rwa [show (runCli cmd f).lineNo = 0 from rfl, Nat.zero_add]

/-- The input `show stats` and a newline: the statistics are printed for ever. -/
theorem ends_fails_show_stats :
    ¬ Ends (List.replicate 64 0) (ascii "show stats" ++ [newline]) := by
  rintro ⟨hret, -⟩
  have hrun : (runCli (List.replicate 64 0) (ascii "show stats" ++ [newline])).appRunning = true := rfl
  refine not_returns_eof ?_ ?_ ?_ ((returns_iff hrun).1 hret) <;> decide

/-! ### The commands and the graph -/

section Graph

variable {α : Type*} {pktLen : α → U32}

/-- The events of the CLI. -/
def IsCli (ev : Event α) : Prop := ev = .enableFirewall ∨ ev = .disableFirewall ∨ ev = .quit

theorem readCmd_flags (c : Cli) :
    (readCmd c).firewallEnabled = c.firewallEnabled ∧ (readCmd c).appRunning = c.appRunning := by
  unfold readCmd
  simp only
  split_ifs
  · exact ⟨rfl, rfl⟩
  · exact ⟨rfl, rfl⟩

theorem iteration_run {s : State α} (hfw : s.firewallEnabled = c.firewallEnabled)
    (hr : s.appRunning = c.appRunning) :
    ∃ evs, Run (Step pktLen) s evs
        { s with
          firewallEnabled := (iteration c).firewallEnabled
          appRunning := (iteration c).appRunning } ∧
      ∀ ev ∈ evs, IsCli ev := by
  obtain ⟨hfw', hr'⟩ := readCmd_flags c
  rw [← hfw] at hfw'
  rw [← hr] at hr'
  unfold iteration act
  split
  · refine ⟨[.enableFirewall], Run.single_iff.2 ⟨trivial, ?_⟩, by simp [IsCli]⟩
    simp [step, hr']
  · refine ⟨[.disableFirewall], Run.single_iff.2 ⟨trivial, ?_⟩, by simp [IsCli]⟩
    simp [step, hr']
  · refine ⟨[.quit], Run.single_iff.2 ⟨trivial, ?_⟩, by simp [IsCli]⟩
    simp [step, hfw']
  · refine ⟨[], ?_, by simp⟩
    rw [hfw', hr']
    exact .refl

/-- **The loop and the graph.**  What the loop does is what events of the CLI do: it changes nothing but the two
flags. -/
theorem loop_run (n : ℕ) {s : State α} (hfw : s.firewallEnabled = c.firewallEnabled)
    (hr : s.appRunning = c.appRunning) :
    ∃ evs, Run (Step pktLen) s evs
        { s with
          firewallEnabled := (loop n c).firewallEnabled
          appRunning := (loop n c).appRunning } ∧
      ∀ ev ∈ evs, IsCli ev := by
  induction n generalizing c s with
  | zero =>
    refine ⟨[], ?_, by simp⟩
    rw [loop, ← hfw, ← hr]
    exact .refl
  | succ n ih =>
    unfold loop
    split_ifs
    · obtain ⟨evs, hrun, hevs⟩ := @iteration_run c α pktLen s hfw hr
      obtain ⟨evs', hrun', hevs'⟩ := ih (c := iteration c) (s := { s with
        firewallEnabled := (iteration c).firewallEnabled
        appRunning := (iteration c).appRunning }) rfl rfl
      refine ⟨evs ++ evs', hrun.append hrun', fun ev hev => ?_⟩
      rcases List.mem_append.1 hev with hev | hev
      · exact hevs ev hev
      · exact hevs' ev hev
    · refine ⟨[], ?_, by simp⟩
      rw [← hfw, ← hr]
      exact .refl

end Graph

end DpdkBeginners.GraphFw
