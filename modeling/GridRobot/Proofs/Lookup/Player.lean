import GridRobot.Proofs.Lookup.Compile
import GridRobot.Proofs.Lookup.Step
import GridRobot.Proofs.Playback.Writing
import GridRobot.Proofs.Robot.Journey

/-!
# Playing by lookups

A player keeps what a playback keeps, in fields that say less: a trace of blocks of any kind, an
index that can be any integer, and three fields for the one phase. It works by lookups that can
fail, and so can the writing of a line and a pause. A playback has a player that works as it does,
and what is called of a playback's player leads to a playback's player again. All that is ever
raised is that the program is empty, that a line cannot be written, or what a pause raises.
-/

namespace GridRobot.Lookup

/-- What a player raises. The pauses raise errors of their own. -/
inductive Raised (ε : Type) where
  | run (e : RunError)
  | pause (e : ε)
  | mishap (m : Mishap)
  deriving DecidableEq

/-- What comes of a pause in front of an index of the trace. A pause need not do the same every time.
-/
abbrev Pauses (ε : Type) := Int → Double → Except ε Unit

structure Player where
  program : Program
  level : Level
  config : Config
  trace : List Block
  index : Int
  running : Bool
  outcome : Option Outcome
  robot : Robot

namespace Player

variable {ε : Type}

def new (program : Program) (level : Level) (config : Config) : Player :=
  { program, level, config, trace := [], index := -1, running := false, outcome := none,
    robot := .start level }

def start (m : Player) : Except (Raised ε) Player :=
  if m.program.isEmpty then .error (.run .emptyProgram)
  else do
    let trace ← (compile m.program).mapError fun u => .mishap (.misuse u)
    return { m with trace, index := 0, running := true, outcome := none, robot := .start m.level }

def stop (m : Player) : Player :=
  { m with index := -1, running := false, outcome := none, robot := .start m.level }

def finish (m : Player) (o : Outcome) : Player := { m with running := false, outcome := some o }

/-- The block at the index, if the player runs and the index is one of the trace. -/
def next (m : Player) : Except Misuse (Option Block) :=
  if m.running ∧ 0 ≤ m.index ∧ m.index < m.trace.length then (item m.trace m.index).map some
  else .ok none

/-- Ends a run that has a reason to end. -/
def settle (m : Player) : Player :=
  if m.robot.crashed then m.finish .crashed
  else if m.robot.won then m.finish .won
  else if m.trace.length ≤ m.index then m.finish .exhausted
  else if m.config.maxSteps ≤ m.index then m.finish .stepLimit
  else m

/-- What is printed of a step, with the last line of the robot's log. -/
def say (m : Player) (b : Block) (r : Robot) : Except Misuse (List String) :=
  if m.config.verbose then do
    let said ← item r.lines (-1)
    return [s!"[step {m.index}] {b.text}  → {said}"]
  else .ok []

/-- Runs one block, and gives the robot if one has run, and what is printed. -/
def tick (m : Player) : Except Mishap (Player × Option Robot × List String) :=
  if ¬m.running then .ok (m, none, [])
  else if m.trace.length ≤ m.index then .ok (m.finish .exhausted, none, [])
  else if m.config.maxSteps ≤ m.index then .ok (m.finish .stepLimit, none, [])
  else do
    let b ← (item m.trace m.index).mapError .misuse
    let robot ← step m.level m.robot b
    let lines ← (m.say b robot).mapError .misuse
    return (settle { m with robot, index := m.index + 1 }, some robot, lines)

/-- More than the number of ticks until the run has ended. -/
def remaining (m : Player) : Nat :=
  if m.running then (m.trace.length - m.index).toNat + 1 else 0

theorem remaining_finish (m : Player) (o : Outcome) : (m.finish o).remaining = 0 := rfl

theorem remaining_settle_le (m : Player) : m.settle.remaining ≤ m.remaining := by
  simp only [settle]
  (repeat' split) <;> simp [remaining_finish]

theorem remaining_tick_lt {m next : Player} {ran : Option Robot} {lines : List String}
    (hrun : m.running = true) (h : m.tick = .ok (next, ran, lines)) :
    next.remaining < m.remaining := by
  have hpos : 0 < m.remaining := by simp [remaining, hrun]
  simp only [tick, hrun, not_true_eq_false, ↓reduceIte] at h
  by_cases hlen : (m.trace.length : Int) ≤ m.index
  · simp only [hlen, ↓reduceIte, Except.ok.injEq, Prod.mk.injEq] at h
    rwa [← h.1, remaining_finish]
  by_cases hmax : m.config.maxSteps ≤ m.index
  · simp only [hlen, hmax, ↓reduceIte, Except.ok.injEq, Prod.mk.injEq] at h
    rwa [← h.1, remaining_finish]
  simp only [hlen, hmax, ↓reduceIte] at h
  cases hb : item m.trace m.index with
  | error u => simp [hb, bind, Except.bind, Except.mapError] at h
  | ok b =>
    cases hr : step m.level m.robot b with
    | error e => simp [hb, hr, bind, Except.bind, Except.mapError] at h
    | ok robot =>
      cases hs : m.say b robot with
      | error u => simp [hb, hr, hs, bind, Except.bind, Except.mapError] at h
      | ok said =>
        simp only [hb, hr, hs, bind, Except.bind, pure, Except.pure, Except.mapError,
          Except.ok.injEq, Prod.mk.injEq] at h
        rw [← h.1]
        refine Nat.lt_of_le_of_lt (remaining_settle_le _) ?_
        simp only [remaining, hrun, ↓reduceIte]
        omega

/-- Ticks until the run has ended, with a pause between ticks where the configuration asks for one.
A tick or a pause that fails leaves the run where it is. -/
def drain (sleep : Pauses ε) (m : Player) : Player × Option (Raised ε) :=
  if _hrun : m.running = true then
    match _h : m.tick with
    | .error e => (m, some (.mishap e))
    | .ok (next, _, _) =>
      if next.running && next.config.delay.isPositive then
        match sleep next.index next.config.delay with
        | .error e => (next, some (.pause e))
        | .ok () => next.drain sleep
      else next.drain sleep
  else (m, none)
termination_by m.remaining
decreasing_by all_goals exact remaining_tick_lt _hrun _h

/-- The player after an operation, and what the operation raises. -/
def call (sleep : Pauses ε) (m : Player) : Operation → Player × Option (Raised ε)
  | .start =>
    match m.start with
    | .ok n => (n, none)
    | .error e => (m, some e)
  | .tick =>
    match m.tick with
    | .ok (n, _, _) => (n, none)
    | .error e => (m, some (.mishap e))
  | .stop => (m.stop, none)
  | .runToEnd =>
    if m.running then m.drain sleep
    else match m.start with
      | .ok n => n.drain sleep
      | .error e => (m, some e)

/-- The player after some operations, each with pauses of its own. One that raises something is
followed by the next. -/
def callAll (m : Player) (calls : List (Operation × Pauses ε)) : Player :=
  calls.foldl (fun m c => (m.call c.2 c.1).1) m

/-- The player that works as a playback does. -/
def of (p : Playback) : Player :=
  ⟨p.program, p.level, p.config, p.trace.toList.map .basic, p.stepIndex, p.running, p.outcome?,
    p.robot⟩

variable {program : Program} {level : Level} {config : Config} {p : Playback}

theorem of_new (program : Program) (level : Level) (config : Config) :
    of (.new program level config) = new program level config := rfl

theorem length_trace_of (p : Playback) : (of p).trace.length = p.trace.size := by simp [of]

section Active

variable {k : Nat} (hp : p.phase = .active k)

include hp

theorem running_of : (of p).running = true := by simp [of, Playback.running, hp]

theorem index_of : (of p).index = k := by simp [of, Playback.stepIndex, hp]

theorem of_ended (o : Outcome) : of { p with phase := .ended k o } = (of p).finish o := by
  simp [of, finish, Playback.stepIndex, Playback.running, Playback.outcome?, hp]

end Active

theorem start_of (p : Playback) : (of p).start (ε := ε) = (p.start.map of).mapError .run := by
  have hcompile : compile (of p).program = .ok (p.program.compile.toList.map .basic) :=
    compile_eq p.program
  by_cases he : p.program.isEmpty = true
  · have he' : (of p).program.isEmpty = true := he
    simp only [start, Playback.start, he, he', ↓reduceIte, Except.map, Except.mapError]
  · have he' : ¬(of p).program.isEmpty = true := he
    simp only [start, Playback.start, he, he', hcompile, bind, Except.bind, pure, Except.pure,
      Except.map, Except.mapError, ↓reduceIte, Bool.false_eq_true]
    rfl

/-- After a step a player has the same reasons to end as a playback. -/
theorem settle_of (p : Playback) (r : Robot) (k : Nat) :
    settle ⟨p.program, p.level, p.config, p.trace.toList.map .basic, k, true, none, r⟩ =
      of { p with phase := p.phaseAfter r k, robot := r } := by
  simp only [settle, Playback.phaseAfter, List.length_map, Array.length_toList, Int.ofNat_le]
  (repeat' split) <;> rfl

theorem item_lines {r : Robot} (h : r.log ≠ []) :
    item r.lines (-1) = .ok (r.lastLine?.getD "") := by
  obtain ⟨line, older, hlog⟩ := List.exists_cons_of_ne_nil h
  refine item_neg_one ?_
  simp [Robot.lines, Robot.lastLine?, hlog]

/-- A robot with a log keeps one. -/
theorem log_run_ne_nil {l : Level} {r : Robot} (h : r.log ≠ []) (t : List Instruction) :
    (Robot.run l r t).log ≠ [] := by
  intro hnil
  have hsuffix := Robot.log_suffix_run l r t
  rw [hnil] at hsuffix
  exact h (List.suffix_nil.mp hsuffix)

theorem log_ne_nil (h : Playback.Tracks program level config p) : p.robot.log ≠ [] := by
  have hstart : (Robot.start level).log ≠ [] := List.cons_ne_nil _ _
  cases h with
  | idle => exact hstart
  | before => exact log_run_ne_nil hstart _
  | finished => exact log_run_ne_nil hstart _

theorem item_trace {k : Nat} {i : Instruction} (h : p.trace[k]? = some i) :
    item (of p).trace k = .ok (.basic i) := by
  refine item_of_nonneg (Int.natCast_nonneg k) ?_
  simp [of, h]

/-- Where the playback performs a step, the player finds its block, a handler for it and a line to
print, unless the line for the log cannot be written. -/
theorem tick_of_performs {k : Nat} {i : Instruction} (hp : p.phase = .active k)
    (hi : p.trace[k]? = some i) (hmax : ¬p.config.maxSteps ≤ k) (hlog : p.robot.log ≠ []) :
    (of p).tick =
      (p.tick?.map fun t => (of t.1, t.2, p.tickLines)).mapError .unwritable := by
  have hline : p.unwritten? = p.robot.unwritten? p.level i := by
    simp only [Playback.unwritten?, hp, hi, hmax, ↓reduceIte, Option.bind_some]
  have hindex := index_of hp
  have hlt : ¬((of p).trace.length : Int) ≤ k := by
    have hk : k < p.trace.size := (Array.getElem?_eq_some_iff.mp hi).1
    rw [length_trace_of]
    omega
  have hmax' : ¬(of p).config.maxSteps ≤ k := hmax
  have hblock : item (of p).trace k = .ok (.basic i) := item_trace hi
  let r := p.robot.step p.level i
  have hstep := step_basic p.level p.robot i
  have htick : p.tick = ({ p with phase := p.phaseAfter r (k + 1), robot := r }, some r) := by
    simp only [Playback.tick, hp, hi, hmax, ↓reduceIte, r]
  have hsay : (of p).say (.basic i) r = .ok p.tickLines := by
    have hnext : p.next? = some i := by simp only [Playback.next?, hp, hi]
    cases hv : p.config.verbose with
    | false =>
      have hv' : ¬(of p).config.verbose = true := by simp [of, hv]
      simp only [say, Playback.tickLines, hv, hv', Bool.false_eq_true, ↓reduceIte]
    | true =>
      have hv' : (of p).config.verbose = true := hv
      have hline : item r.lines (-1) = .ok (r.lastLine?.getD "") :=
        item_lines (log_run_ne_nil hlog [i])
      simp only [say, hv', ↓reduceIte, hline, hindex, text_basic, Playback.tickLines, hv, hp, hnext,
        htick, bind, Except.bind, pure, Except.pure]
      rfl
  have hstate : ({ of p with robot := r, index := (k + 1 : Nat) } : Player) =
      ⟨p.program, p.level, p.config, p.trace.toList.map .basic, (k + 1 : Nat), true, none, r⟩ := by
    simp [of, Playback.running, Playback.outcome?, hp]
  have hsettle := settle_of p r (k + 1)
  rw [← hstate] at hsettle
  cases hu : p.robot.unwritten? p.level i with
  | some line =>
    have hfails : step (of p).level (of p).robot (.basic i) = .error (.unwritable line) := by
      rw [Robot.step?, hu] at hstep
      exact hstep
    simp only [tick, running_of hp, hindex, hlt, hmax', hblock, hfails, Playback.tick?, hline, hu,
      bind, Except.bind, Except.mapError, Except.map, not_true_eq_false, ↓reduceIte]
  | none =>
    have hruns : step (of p).level (of p).robot (.basic i) = .ok r := by
      rw [Robot.step?, hu] at hstep
      exact hstep
    simp only [tick, running_of hp, hindex, hlt, hmax', hblock, hruns, hsay, Playback.tick?, hline,
      hu, htick, ← hsettle, bind, Except.bind, pure, Except.pure, Except.mapError, Except.map,
      not_true_eq_false, ↓reduceIte]
    rfl

theorem tick_of_not_running (hrun : p.running = false) :
    (of p).tick = .ok (of p.tick.1, p.tick.2, p.tickLines) := by
  have htick := Playback.tick_of_not_running hrun
  have hrun' : ¬(of p).running = true := by simp [of, hrun]
  rw [Playback.tickLines_of_none (congrArg Prod.snd htick), htick, tick, if_pos hrun']

/-- Whatever a tick looks for is there, so it is the tick of the playback. -/
theorem tick_of (hlog : p.robot.log ≠ []) :
    (of p).tick = (p.tick?.map fun t => (of t.1, t.2, p.tickLines)).mapError .unwritable := by
  -- Where nothing is performed there is nothing to write.
  have hgo (hnone : p.unwritten? = none)
      (htick : (of p).tick = .ok (of p.tick.1, p.tick.2, p.tickLines)) :
      (of p).tick = (p.tick?.map fun t => (of t.1, t.2, p.tickLines)).mapError .unwritable := by
    rw [Playback.tick?, hnone]
    exact htick
  cases hp : p.phase with
  | idle =>
    exact hgo (by simp only [Playback.unwritten?, hp])
      (tick_of_not_running (by simp only [Playback.running, hp]))
  | ended =>
    exact hgo (by simp only [Playback.unwritten?, hp])
      (tick_of_not_running (by simp only [Playback.running, hp]))
  | active k =>
    have hrun := running_of hp
    have hindex := index_of hp
    have hlen := length_trace_of p
    have hconfig : (of p).config = p.config := rfl
    cases hi : p.trace[k]? with
    | none =>
      have hle : p.trace.size ≤ k := by simpa using hi
      have htick : p.tick = ({ p with phase := .ended k .exhausted }, none) := by
        simp only [Playback.tick, hp, hi]
      refine hgo (by simp [Playback.unwritten?, hp, hi]) ?_
      rw [Playback.tickLines_of_none (congrArg Prod.snd htick), htick, of_ended hp, tick]
      simp [hrun, hindex, hlen, hle]
    | some i =>
      by_cases hmax : p.config.maxSteps ≤ k
      · have hlt : ¬p.trace.size ≤ k := Nat.not_le.mpr (Array.getElem?_eq_some_iff.mp hi).1
        have htick : p.tick = ({ p with phase := .ended k .stepLimit }, none) := by
          simp only [Playback.tick, hp, hi, hmax, ↓reduceIte]
        refine hgo (by simp [Playback.unwritten?, hp, hmax]) ?_
        rw [Playback.tickLines_of_none (congrArg Prod.snd htick), htick, of_ended hp, tick]
        simp [hrun, hindex, hlen, hlt, hconfig, hmax]
      · exact tick_of_performs hp hi hmax hlog

theorem tick_of_written (hlog : p.robot.log ≠ []) (h : p.unwritten? = none) :
    (of p).tick = .ok (of p.tick.1, p.tick.2, p.tickLines) := by
  rw [tick_of hlog, Playback.tick?, h]
  rfl

theorem tick_of_unwritten {line : LogLine} (hlog : p.robot.log ≠ [])
    (h : p.unwritten? = some line) : (of p).tick = .error (.unwritable line) := by
  rw [tick_of hlog, Playback.tick?, h]
  rfl

theorem next_of (p : Playback) : (of p).next = .ok (p.next?.map .basic) := by
  cases hp : p.phase with
  | idle => simp [next, of, Playback.running, Playback.next?, hp]
  | ended => simp [next, of, Playback.running, Playback.next?, hp]
  | active k =>
    have hnext : p.next? = p.trace[k]? := by simp only [Playback.next?, hp]
    rw [next, index_of hp, length_trace_of, hnext]
    cases hi : p.trace[k]? with
    | none =>
      have hle : p.trace.size ≤ k := by simpa using hi
      rw [if_neg (by omega)]
      rfl
    | some i =>
      have hlt : k < p.trace.size := (Array.getElem?_eq_some_iff.mp hi).1
      rw [if_pos ⟨running_of hp, by omega, by omega⟩, item_trace hi]
      rfl

section Pauses

variable {sleep : Pauses ε} {m n : Player} {ran : Option Robot} {lines : List String}

theorem drain_of_not_running (h : m.running = false) : m.drain sleep = (m, none) := by
  rw [drain, dif_neg (by simp [h])]

/-- Between two ticks there is no pause, or one that succeeds. -/
theorem drain_of_tick (hrun : m.running = true) (h : m.tick = .ok (n, ran, lines))
    (hpause : (n.running && n.config.delay.isPositive) = true →
      sleep n.index n.config.delay = .ok ()) :
    m.drain sleep = n.drain sleep := by
  rw [drain, dif_pos hrun]
  split <;> simp_all

theorem drain_of_pause {e : ε} (hrun : m.running = true) (h : m.tick = .ok (n, ran, lines))
    (hpause : (n.running && n.config.delay.isPositive) = true)
    (he : sleep n.index n.config.delay = .error e) : m.drain sleep = (n, some (.pause e)) := by
  rw [drain, dif_pos hrun]
  split <;> simp_all

theorem drain_of_mishap {e : Mishap} (hrun : m.running = true) (h : m.tick = .error e) :
    m.drain sleep = (m, some (.mishap e)) := by
  rw [drain, dif_pos hrun]
  split <;> simp_all

end Pauses

/-- What a run to the end breaks off at, in front of a tick: a pause that fails, or a line that
cannot be written. -/
inductive Interrupts (config : Config) (sleep : Pauses ε) (q : Playback) : Raised ε → Prop
  | pause {e : ε} (delay : config.delay.isPositive = true)
      (fails : sleep q.stepIndex config.delay = .error e) : Interrupts config sleep q (.pause e)
  | line {line : LogLine} (long : q.unwritten? = some line) :
      Interrupts config sleep q (.mishap (.unwritable line))

/-- Ticking until the end leads to the end of the playback, or to what it breaks off at. -/
theorem drain_of (sleep : Pauses ε) (h : Playback.Tracks program level config p) (pauses : Nat) :
    (of p).drain sleep = (of (p.drain pauses).1, none) ∨
      ∃ q e, Playback.Tracks program level config q ∧ Interrupts config sleep q e ∧
        (of p).drain sleep = (of q, some e) := by
  fun_induction Playback.drain p pauses with
  | case1 p pauses hrun q ih =>
    cases hu : p.unwritten? with
    | some line =>
      have htick := tick_of_unwritten (log_ne_nil h) hu
      exact .inr ⟨p, _, h, .line hu, drain_of_mishap hrun htick⟩
    | none =>
      have htick := tick_of_written (log_ne_nil h) hu
      have hq : Playback.Tracks program level config q := Playback.tick_tracks h
      have hconfig : (of q).config = config := hq.config_eq
      by_cases hfail : ((of q).running && (of q).config.delay.isPositive) = true ∧
          ∃ e, sleep (of q).index config.delay = .error e
      · obtain ⟨hpause, e, he⟩ := hfail
        have hdelay : config.delay.isPositive = true := by
          rw [hconfig, Bool.and_eq_true] at hpause
          exact hpause.2
        exact .inr ⟨q, _, hq, .pause hdelay he, drain_of_pause hrun htick hpause (by rwa [hconfig])⟩
      · have hgo : (of p).drain sleep = (of q).drain sleep := by
          refine drain_of_tick hrun htick fun hpause => ?_
          cases hs : sleep (of q).index (of q).config.delay with
          | ok => rfl
          | error e => exact absurd ⟨hpause, e, by rwa [← hconfig]⟩ hfail
        rw [hgo]
        exact ih hq
  | case2 p pauses hrun =>
    have hidle : (of p).running = false := by simpa [of] using hrun
    exact .inl (drain_of_not_running hidle)

/-- What a call of a playback's player can come to. -/
inductive Answer (program : Program) (level : Level) (config : Config) (sleep : Pauses ε)
    (p : Playback) (op : Operation) : Player × Option (Raised ε) → Prop
  | done : Answer program level config sleep p op (of (p.operate op), none)
  | refused (hempty : program = []) (hop : op = .start ∨ op = .runToEnd)
      (hsame : p.operate op = p) :
      Answer program level config sleep p op (of p, some (.run .emptyProgram))
  | unwritten (line : LogLine) (hop : op = .tick) (hline : p.unwritten? = some line) :
      Answer program level config sleep p op (of p, some (.mishap (.unwritable line)))
  | brokenOff (q : Playback) (e : Raised ε) (hq : Playback.Tracks program level config q)
      (hop : op = .runToEnd) (he : Interrupts config sleep q e) :
      Answer program level config sleep p op (of q, some e)

theorem answer_drain (sleep : Pauses ε) {q : Playback} (hres : p.resume = .ok q)
    (hq : Playback.Tracks program level config q) :
    Answer program level config sleep p .runToEnd ((of q).drain sleep) := by
  have hop : p.operate .runToEnd = (q.drain 0).1 := by
    simp only [Playback.operate, Playback.runToEnd, hres, Except.map]
  rcases drain_of sleep hq 0 with hend | ⟨q', e, hq', he, hend⟩
  · rw [hend, ← hop]
    exact .done
  · rw [hend]
    exact .brokenOff q' e hq' rfl he

/-- Every call does what the playback does, unless a pause or the writing of a line fails. -/
theorem call_of (sleep : Pauses ε) (h : Playback.Tracks program level config p) (op : Operation) :
    Answer program level config sleep p op ((of p).call sleep op) := by
  cases op with
  | start =>
    by_cases hempty : program = []
    · have hstart := (Playback.start_eq_error_iff h).mpr hempty
      have hop : p.operate .start = p := by simp only [Playback.operate, hstart]
      simp only [call, start_of, hstart, Except.map, Except.mapError]
      exact .refused hempty (.inl rfl) hop
    · have hstart := Playback.start_eq_before h hempty
      have hop : p.operate .start = .before program level config 0 := by
        simp only [Playback.operate, hstart]
      simp only [call, start_of, hstart, Except.map, Except.mapError, ← hop]
      exact .done
  | tick =>
    cases hu : p.unwritten? with
    | some line =>
      simp only [call, tick_of_unwritten (log_ne_nil h) hu]
      exact .unwritten line rfl hu
    | none =>
      simp only [call, tick_of_written (log_ne_nil h) hu]
      exact .done
  | stop => exact .done
  | runToEnd =>
    by_cases hrun : p.running = true
    · have hres : p.resume = .ok p := by rw [Playback.resume, if_pos hrun]
      have hcall : (of p).call sleep .runToEnd = (of p).drain sleep := if_pos hrun
      rw [hcall]
      exact answer_drain sleep hres h
    · have hres := Playback.resume_of_not_running (by simpa using hrun)
      have hrun' : ¬(of p).running = true := hrun
      by_cases hempty : program = []
      · have hstart := (Playback.start_eq_error_iff h).mpr hempty
        have hop : p.operate .runToEnd = p := by
          simp only [Playback.operate, Playback.runToEnd_empty h hempty]
        simp only [call, hrun', start_of, hstart, Except.map, Except.mapError, ↓reduceIte,
          Bool.false_eq_true]
        exact .refused hempty (.inr rfl) hop
      · have hstart := Playback.start_eq_before h hempty
        simp only [call, hrun', start_of, hstart, Except.map, Except.mapError, ↓reduceIte,
          Bool.false_eq_true]
        exact answer_drain sleep (hres.trans hstart) (.before 0 hempty Playback.ready_zero)

/-- Whatever has been called, the player is one of a playback's. -/
theorem callAll_of (calls : List (Operation × Pauses ε))
    (h : Playback.Tracks program level config p) :
    ∃ q, Playback.Tracks program level config q ∧ (of p).callAll calls = of q := by
  induction calls generalizing p with
  | nil => exact ⟨p, h, rfl⟩
  | cons c calls ih =>
    -- One call leads to the player of some playback of the program, which is all that is needed.
    obtain ⟨q, hq, hcall⟩ : ∃ q, Playback.Tracks program level config q ∧
        ((of p).call c.2 c.1).1 = of q := by
      have hanswer := call_of c.2 h c.1
      generalize (of p).call c.2 c.1 = answer at hanswer ⊢
      cases hanswer with
      | done => exact ⟨_, Playback.operate_tracks c.1 h, rfl⟩
      | refused => exact ⟨p, h, rfl⟩
      | unwritten => exact ⟨p, h, rfl⟩
      | brokenOff q e hq => exact ⟨q, hq, rfl⟩
    rw [callAll, List.foldl_cons, hcall]
    exact ih hq

/-- If no pause fails and all lines can be written, the player goes the way of the playback. -/
theorem callAll_of_sleeps {calls : List (Operation × Pauses ε)} (hlevel : level.Writable)
    (hsleep : ∀ c ∈ calls, ∀ k d, c.2 k d = .ok ()) (h : Playback.Tracks program level config p) :
    (of p).callAll calls = of (p.operateAll (calls.map Prod.fst)) := by
  induction calls generalizing p with
  | nil => rfl
  | cons c calls ih =>
    have hcall : ((of p).call c.2 c.1).1 = of (p.operate c.1) := by
      have hanswer := call_of c.2 h c.1
      generalize (of p).call c.2 c.1 = answer at hanswer ⊢
      cases hanswer with
      | done => rfl
      | refused _ _ hsame => rw [hsame]
      | unwritten line _ hline => exact absurd hlevel (h.not_writable hline).2
      | brokenOff q e hq _ he =>
        cases he with
        | pause _ fails => simp [hsleep c List.mem_cons_self] at fails
        | line long => exact absurd hlevel (hq.not_writable long).2
    rw [callAll, List.foldl_cons, hcall]
    exact ih (fun c' hc' => hsleep c' (List.mem_cons_of_mem c hc')) (Playback.operate_tracks c.1 h)

end Player

end GridRobot.Lookup
