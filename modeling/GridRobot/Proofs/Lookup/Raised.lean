import GridRobot.Campaign.Levels
import GridRobot.CommandLine.Pause
import GridRobot.Proofs.Level.Numbers
import GridRobot.Proofs.Lookup.Board
import GridRobot.Proofs.Lookup.Player
import GridRobot.Proofs.Playback.Writing

/-!
# What can be raised

An execution can be recorded by lookups as well, and with it the parts are complete from which a
program is played, listed and shown. The main statement says that none of their lookups fails. What
is still raised comes from outside: from a program without blocks, a pause that fails, a board of a
size that no row can have, or coordinates that are too long to be written. No level that is read
from a text has such coordinates.
-/

namespace GridRobot.Lookup

/-- What an execution records of a step. -/
structure Performed where
  index : Nat
  block : Option Block
  robot : Robot

structure Record where
  initial : Robot
  steps : List Performed
  final : Robot
  stats : RunStats

def Performed.of (s : RecordedStep) : Performed := ⟨s.index, some (.basic s.instruction), s.robot⟩

def Record.of (e : Execution) : Record := ⟨e.initial, e.steps.map .of, e.final, e.stats⟩

namespace Player

/-- Ticks as long as the player runs and something is performed, and records it, the latest first.
-/
def record (m : Player) (count : Nat) (steps : List Performed) :
    Except Mishap (Player × List Performed) :=
  if _hrun : m.running = true then
    match m.next with
    | .error u => .error (.misuse u)
    | .ok block =>
      match _h : m.tick with
      | .error e => .error e
      | .ok (n, none, _) => .ok (n, steps)
      | .ok (n, some r, _) => n.record (count + 1) (⟨count, block, r⟩ :: steps)
  else .ok (m, steps)
termination_by m.remaining
decreasing_by exact remaining_tick_lt _hrun _h

section

variable {m n : Player} {block : Option Block} {lines : List String}

theorem record_of_not_running (h : m.running = false) (count : Nat) (steps : List Performed) :
    m.record count steps = .ok (m, steps) := by
  rw [record, dif_neg (by simp [h])]

theorem record_of_none (hrun : m.running = true) (hnext : m.next = .ok block)
    (h : m.tick = .ok (n, none, lines)) (count : Nat) (steps : List Performed) :
    m.record count steps = .ok (n, steps) := by
  rw [record, dif_pos hrun]
  split <;> simp_all
  split <;> simp_all

theorem record_of_some {r : Robot} (hrun : m.running = true) (hnext : m.next = .ok block)
    (h : m.tick = .ok (n, some r, lines)) (count : Nat) (steps : List Performed) :
    m.record count steps = n.record (count + 1) (⟨count, block, r⟩ :: steps) := by
  rw [record, dif_pos hrun]
  split <;> simp_all
  split <;> simp_all

theorem record_of_mishap {e : Mishap} (hrun : m.running = true) (hnext : m.next = .ok block)
    (h : m.tick = .error e) (count : Nat) (steps : List Performed) :
    m.record count steps = .error e := by
  rw [record, dif_pos hrun]
  split <;> simp_all
  split <;> simp_all

end

variable {program : Program} {level : Level} {config : Config}

theorem exists_next_of_tick {p : Playback} {r : Robot} (h : p.tick.2 = some r) :
    ∃ i, p.next? = some i := by
  cases hp : p.phase with
  | active k =>
    cases hi : p.trace[k]? with
    | none => simp [Playback.tick, hp, hi] at h
    | some i => exact ⟨i, by simp only [Playback.next?, hp, hi]⟩
  | idle => simp [Playback.tick, hp] at h
  | ended => simp [Playback.tick, hp] at h

/-- The recording loop finds a block for every robot that it records, and fails at the first line
that cannot be written. -/
theorem record_of {p : Playback} (h : Playback.Tracks program level config p) (count : Nat)
    (steps : List RecordedStep) :
    (∀ line, p.unwrittenFrom? = some line →
      (of p).record count (steps.map .of) = .error (.unwritable line)) ∧
    (p.unwrittenFrom? = none →
      (of p).record count (steps.map .of) =
        .ok (of (p.record count steps).1, (p.record count steps).2.map .of)) := by
  by_cases hrun : p.running = true
  · rw [Playback.unwrittenFrom?_of_running hrun]
    cases hu : p.unwritten? with
    | some line =>
      have htick := tick_of_unwritten (log_ne_nil h) hu
      rw [Option.some_or, record_of_mishap hrun (next_of p) htick]
      simp
    | none =>
      have htick := tick_of_written (log_ne_nil h) hu
      rw [Option.none_or]
      cases hr : p.tick.2 with
      | none =>
        rw [hr] at htick
        rw [Playback.record_of_none hr, record_of_none hrun (next_of p) htick,
          Playback.unwrittenFrom?_of_not_running (Playback.running_tick_of_none hr)]
        simp
      | some r =>
        obtain ⟨i, hi⟩ := exists_next_of_tick hr
        rw [hr] at htick
        have hnext : (of p).next = .ok (some (.basic i)) := by rw [next_of, hi, Option.map_some]
        rw [Playback.record_of_some hi hr, record_of_some hrun hnext htick]
        exact record_of (Playback.tick_tracks h) (count + 1) (⟨count, i, r⟩ :: steps)
  · have hidle : p.running = false := by simpa using hrun
    have htick := Playback.tick_of_not_running hidle
    rw [Playback.record_of_none (congrArg Prod.snd htick), htick, record_of_not_running hidle,
      Playback.unwrittenFrom?_of_not_running hidle]
    simp
termination_by p.remaining
decreasing_by exact Playback.remaining_tick_lt hrun

end Player

/-- Runs a program to its end without pauses. -/
def execute (program : Program) (level : Level) (config : Config) :
    Except (Raised Empty) Record := do
  let m ← (Player.new program level config).start
  let (ended, steps) ← (m.record 0 []).mapError .mishap
  return {
    initial := m.robot
    steps := steps.reverse
    final := ended.robot
    stats := {
      blockCount := program.blockCount
      traceLength := m.trace.length
      steps := steps.length
      coinsCollected := ended.robot.coins.length
      outcome := ended.outcome } }

/-- An execution by lookups fails at the first line that cannot be written, and otherwise gives what
the execution gives, or refuses an empty program. -/
theorem execute_eq (program : Program) (level : Level) (config : Config) :
    let unwritten := (Playback.new program level config).runTrail.findSome? Playback.unwritten?
    (∀ line, unwritten = some line →
      execute program level config = .error (.mishap (.unwritable line))) ∧
    (unwritten = none →
      execute program level config = ((program.execute level config).map .of).mapError .run) := by
  have hnew := Playback.new_tracks program level config
  rw [Playback.findSome?_runTrail_new, execute, ← Player.of_new, Player.start_of]
  by_cases hempty : program = []
  · have hstart := (Playback.start_eq_error_iff hnew).mpr hempty
    simp only [if_pos hempty, Program.execute_of_empty level config hempty, hstart, bind,
      Except.bind, Except.map, Except.mapError]
    simp
  · have hstart := Playback.start_eq_before hnew hempty
    have hbefore : Playback.Tracks program level config (.before program level config 0) :=
      .before 0 hempty Playback.ready_zero
    obtain ⟨hfails, hruns⟩ := Player.record_of hbefore 0 []
    have hlen : (Player.of (.before program level config 0)).trace.length =
        program.compile.size := by
      simp [Player.of, Playback.before]
    rw [List.map_nil] at hfails hruns
    rw [if_neg hempty]
    constructor
    · intro line hline
      simp only [hstart, hfails line hline, bind, Except.bind, Except.map, Except.mapError]
    · intro hnone
      simp only [Program.execute, hstart, hruns hnone, hlen, Record.of, bind, Except.bind, pure,
        Except.pure, Except.map, Except.mapError, List.map_reverse, List.length_map]
      rfl

/-- An execution fails only if there are no blocks, or at a line that cannot be written. -/
theorem execute_eq_error_iff {program : Program} {level : Level} {config : Config}
    {e : Raised Empty} :
    execute program level config = .error e ↔ (e = .run .emptyProgram ∧ program = []) ∨
      ∃ line, e = .mishap (.unwritable line) ∧
        (Playback.new program level config).runTrail.findSome? Playback.unwritten? =
          some line := by
  obtain ⟨hfails, hruns⟩ := execute_eq program level config
  cases hfirst : (Playback.new program level config).runTrail.findSome? Playback.unwritten? with
  | some line =>
    have hne : program ≠ [] := by
      rintro rfl
      rw [Playback.findSome?_runTrail_new] at hfirst
      cases hfirst
    simp [hfails line hfirst, hne, eq_comm]
  | none =>
    rw [hruns hfirst]
    by_cases hempty : program = []
    · rw [Program.execute_of_empty level config hempty]
      simp [hempty, Except.map, Except.mapError, eq_comm]
    · obtain ⟨k, -, hexec⟩ := Program.execute_eq level config hempty
      simp [hexec, hempty, Except.map, Except.mapError]

/-- Whatever has been called before, a call raises only that the program is empty, that a line with
the coordinates of a cell cannot be written, or what a pause of a run to the end raises; no lookup
fails, and the player is one of a playback's. An execution raises only that the program is empty, or
that a line cannot be written, and fails at the first such line of a run. A listing raises nothing,
and neither does a board for which there can be a row, with any robot on it or none. All lines can
be written unless the board has coordinates that are too long, and so they can on every level that
is read from a text. Memory is taken to suffice, for traces as well as for boards. -/
theorem no_misuse {ε : Type} (program : Program) (level : Level) (config : Config)
    (history : List (Operation × Pauses ε)) :
    let m := (Player.new program level config).callAll history
    let unwritten := (Playback.new program level config).runTrail.findSome? Playback.unwritten?
    (∃ p, Playback.Tracks program level config p ∧ m = .of p ∧
      m.next = .ok (p.next?.map .basic) ∧
      m.tick = (p.tick?.map fun t => (.of t.1, t.2, p.tickLines)).mapError .unwritable) ∧
    (level.Writable → (∀ c ∈ history, ∀ k d, c.2 k d = .ok ()) →
      m = .of ((Playback.new program level config).operateAll (history.map Prod.fst))) ∧
    (∀ (sleep : Pauses ε) op e, (m.call sleep op).2 = some e →
      (e = .run .emptyProgram ∧ program = [] ∧ (op = .start ∨ op = .runToEnd)) ∨
      (∃ line, e = .mishap (.unwritable line) ∧ (op = .tick ∨ op = .runToEnd) ∧
        ¬line.Writable ∧ ¬level.Writable) ∨
      ∃ e' k, e = .pause e' ∧ op = .runToEnd ∧ config.delay.isPositive = true ∧
        sleep k config.delay = .error e') ∧
    (∀ e, execute program level config = .error e ↔
      (e = .run .emptyProgram ∧ program = []) ∨
      ∃ line, e = .mishap (.unwritable line) ∧ unwritten = some line) ∧
    (unwritten = none →
      execute program level config = ((program.execute level config).map .of).mapError .run) ∧
    (∀ line, unwritten = some line → ¬line.Writable ∧ ¬level.Writable) ∧
    listing program = .ok program.listing ∧
    (∀ r, board level r = ((Board.draw? level r).map Board.rows).mapError .inl ∧
      (8 * level.size < Nat.pow 2 63 → board level r = .ok (Board.draw level r).rows)) ∧
    ((∃ source, Level.parse source = .ok level) → level.Writable) := by
  intro m unwritten
  have hnew := Playback.new_tracks program level config
  obtain ⟨p, hp, hm⟩ : ∃ p, Playback.Tracks program level config p ∧ m = .of p :=
    Player.callAll_of history hnew
  refine ⟨⟨p, hp, hm, ?_, ?_⟩, ?_, ?_, fun e => execute_eq_error_iff,
    (execute_eq program level config).2, ?_, listing_eq program, ?_, ?_⟩
  · rw [hm, Player.next_of]
  · rw [hm, Player.tick_of (Player.log_ne_nil hp)]
  · intro hlevel hsleep
    exact Player.callAll_of_sleeps hlevel hsleep hnew
  · intro sleep op e he
    have hanswer := Player.call_of sleep hp op
    rw [hm] at he
    generalize (Player.of p).call sleep op = answer at hanswer he
    cases hanswer with
    | done => cases he
    | refused hempty hop =>
      cases he
      exact .inl ⟨rfl, hempty, hop⟩
    | unwritten line hop hline =>
      cases he
      exact .inr (.inl ⟨line, rfl, .inl hop, hp.not_writable hline⟩)
    | brokenOff q e' hq hop hbreak =>
      cases he
      cases hbreak with
      | pause hdelay hfail => exact .inr (.inr ⟨_, _, rfl, hop, hdelay, hfail⟩)
      | line hline => exact .inr (.inl ⟨_, rfl, .inr hop, hq.not_writable hline⟩)
  · intro line hline
    exact Playback.not_writable_of_runTrail hline
  · intro r
    refine ⟨board_eq level r, fun hrow => ?_⟩
    rw [board_eq, Board.draw?_eq_ok hrow]
    rfl
  · rintro ⟨source, hsource⟩
    exact Level.parse_writable hsource

/-- Every pause is made as the command line makes it. -/
def pauses : Pauses CommandLine.PauseFault :=
  fun _ seconds => (CommandLine.pauseLength seconds).map fun _ => ()

/-- A run of a program that has blocks raises what its first pause does, a level may be too large
for its board, and a move on a level that is no larger than others writes a line that is too long.
-/
theorem raised_otherwise :
    (let level := Campaign.initiation
    let m := Player.new level.solution level { delay := .ofInt 10000000000 }
    level.solution ≠ [] ∧ (m.call pauses .runToEnd).2 = some (.pause .tooLong)) ∧
    board { Campaign.initiation with size := Nat.pow 2 63, size_pos := by decide } none =
      .error (.inl .uncountable) ∧
    let level : Level := { Campaign.initiation with
      size := Nat.pow 10 4301, start := ⟨Nat.pow 10 4300, 0⟩, entities := []
      size_pos := by decide +kernel }
    let m := Player.new [.basic .move] level { delay := .zero }
    (m.call pauses .runToEnd).2 =
      some (.mishap (.unwritable (.moved ⟨Nat.pow 10 4300 + 1, 0⟩))) := by
  refine ⟨⟨List.cons_ne_nil _ _, ?_⟩, ?_, ?_⟩
  · decide +kernel
  · rfl
  · decide +kernel

end GridRobot.Lookup
