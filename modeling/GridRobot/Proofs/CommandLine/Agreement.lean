import GridRobot.Proofs.CommandLine.Playing
import GridRobot.Proofs.Level.Numbers

/-!
# A session and the execution of its program

A session drives a playback, and an execution a loop of its own. The main statement says that a
session that runs a program shows what an execution of the program gives, and that its status, the
outcome, the robot and the rating tell the same of a win.
-/

namespace GridRobot

namespace CommandLine

/-- The text that a file encodes is read from it. -/
theorem Reader.text_eq_ok {read : Reader} {name text : String} (hnull : '\x00' ∉ name.toList)
    (hread : read (.ofText name) = .ok text.toUTF8) : read.text name = .ok text := by
  have hcoding : String.fromUTF8? text.toUTF8 = some text := by
    simp [String.fromUTF8?, String.fromUTF8, text.isValidUTF8]
  simp only [Reader.text, if_neg hnull, hread, hcoding]

namespace Options

open Session

variable {o : Options} {read : Reader} {l : Level} {program : Program}

/-- The lines of the state that a session shows at the end: all of the robot, then the outcome and
the rating. -/
def stateLines (program : Program) (l : Level) (r : Robot) (outcome : Outcome) : List String :=
  ["", "═══ Final Robot State ═══",
    (Json.object (r.fields ++ [("outcome", .string outcome.name),
      ("rating", .string (program.rating l r.won).name)])).text]

theorem conclude_eq {k : Nat} {config : Config} {board : Board}
    (hboard : Board.draw? l (some (program.robotAfter l k)) = .ok board) :
    let r := program.robotAfter l k
    conclude program l (.finished program l config k) =
      ⟨[.print (Text.endLines ["═══ Grid ═══"] ++ Text.endLines board.rows ++
        Text.endLines (stateLines program l r (.of r k program.compile.size)))],
        .exit (if r.won then 0 else 2)⟩ := by
  intro r
  have htext : boardText l (Playback.finished program l config k).robot =
      .ok (Text.endLines board.rows) := congrArg (Except.map _) hboard
  simp only [conclude, htext]
  rfl

theorem mapError_eq_ok {α β ε : Type} {x : Except α ε} {f : α → β} {a : ε}
    (h : x.mapError f = .ok a) : x = .ok a := by
  cases x with
  | error e => cases h
  | ok b => exact congrArg Except.ok (Except.ok.inj h)

/-- A level is read from a text or built in, so no coordinate on its board is too long. -/
theorem loadLevel_writable (h : o.loadLevel read = .ok l) : l.Writable := by
  rw [loadLevel] at h
  split at h
  · rename_i name _
    cases htext : read.text name with
    | error e => simp [htext, bind, Except.bind] at h
    | ok text =>
      have hparse : (Level.parse text).mapError (fun e => (.inr (.rejected e) : Abort ⊕ Failure)) =
          .ok l := by
        rwa [htext] at h
      exact Level.parse_writable (mapError_eq_ok hparse)
  · split at h
    · exact Campaign.level_writable (mapError_eq_ok h)
    · cases h

/-- A session runs a program under a limit, with blocks in it and nothing against it. Its limit then
gives one execution, with an outcome, whatever the delay and whether or not the run prints, and with
no line in it that is too long to be written. If the board at the end can be drawn, the session
prints the steps of the execution when told to, the board with the final robot on it, and the robot,
outcome and rating of the execution. It comes to a status, which is zero exactly for a win, however
the win is told. -/
theorem run_agrees {m : Int} {n : Nat} (hplays : o.Plays read l program) (hne : program ≠ [])
    (hlimit : o.maxSteps = some m) (hdelay : o.delay.map pauseLength = some (.ok n)) :
    ∃ e outcome,
      (∀ delay verbose, program.execute l ⟨m, delay, verbose⟩ = .ok e) ∧
      l.Writable ∧
      e.stats.outcome = some outcome ∧
      (∀ board, Board.draw? l (some e.final) = .ok board →
        let s := o.run read false
        s.stdout = stdout ⟨o.notice l, .exit 0⟩ ++ Text.endLines
          ((if o.verbose then e.steps.map RecordedStep.line else []) ++
            ["═══ Grid ═══"] ++ board.rows ++ stateLines program l e.final outcome) ∧
        (s.ending = .exit 0 ∨ s.ending = .exit 2) ∧
        (s.ending = .exit 0 ↔ outcome = .won)) ∧
      (outcome = .won ↔ e.final.won = true) ∧
      (e.final.won = true ↔ program.rating l e.final.won ≠ .failed) := by
  have hconfig : o.config.limit = m.toNat := by simp only [Config.limit, config, hlimit]; rfl
  obtain ⟨k, hend⟩ := program.exists_endsAfter l o.config
  refine ⟨program.executionAfter l k, .of (program.robotAfter l k) k program.compile.size, ?_,
    loadLevel_writable hplays.level, rfl, ?_, hend.outcome.1,
    (Program.rating_ne_failed_iff _ _ _).symm⟩
  · intro delay verbose
    refine Program.execute_eq_executionAfter hne ?_
    rw [Program.EndsAfter, hconfig] at hend
    exact hend
  · intro board hboard s
    obtain ⟨effects, hplay, hstdout⟩ := play_eq hne hdelay (by simp [hlimit]) hend
    have hs : s = _ := hplays.run_eq_play.trans hplay
    rw [conclude_eq hboard] at hs
    have hwon := hend.outcome.1
    refine ⟨?_, ?_, ?_⟩
    · rw [hs, stdout_append, hstdout, stdout_print]
      simp only [Text.endLines_append, String.append_assoc]
      rfl
    · rw [hs]
      split <;> simp
    · rw [hs, hwon]
      cases (program.robotAfter l k).won <;> simp

/-- The solution of the first level wins, and the session says so. -/
theorem run_agrees_initiation :
    let o : Options := {}
    let read : Reader := fun _ => .error .notFound
    let l := Campaign.initiation
    o.Plays read l l.solution ∧ l.solution ≠ [] ∧ o.maxSteps = some 1000 ∧
      o.delay.map pauseLength = some (.ok 0) ∧
      ∃ e, (∀ delay verbose, l.solution.execute l ⟨1000, delay, verbose⟩ = .ok e) ∧
        e.stats.outcome = some .won ∧ (o.run read false).ending = .exit 0 := by
  intro o read l
  have hplays : o.Plays read l l.solution := ⟨⟨rfl, rfl, rfl⟩, rfl, nofun⟩
  have hne : l.solution ≠ [] := List.cons_ne_nil _ _
  have hdelay : o.delay.map pauseLength = some (.ok 0) := by decide +kernel
  obtain ⟨e, outcome, hexec, -, houtcome, hshown, hwon, -⟩ :=
    run_agrees hplays hne (m := 1000) rfl hdelay
  have hwins : (l.solution.execute l {}).map (fun e => e.final.won) = .ok true := by
    decide +kernel
  have hfinal : e.final.won = true := Except.ok.inj ((congrArg _ (hexec _ _)).symm.trans hwins)
  obtain ⟨-, -, hzero⟩ := hshown _ (Board.draw?_eq_ok (by decide))
  obtain rfl : outcome = .won := hwon.mpr hfinal
  exact ⟨hplays, hne, rfl, hdelay, e, hexec, houtcome, hzero.mpr rfl⟩

/-- A level is loaded from a file that holds its source. -/
theorem loadLevel_of_file {name text : String} (hfile : given o.levelFile = some name)
    (htext : read.text name = .ok text) (hparse : Level.parse text = .ok l) :
    o.loadLevel read = .ok l := by
  simp only [loadLevel, hfile, htext, hparse, bind, Except.bind, Except.mapError]

/-- A level whose board has more cells in a row than can be numbered. One step leads to the goal. -/
def vastSource : String :=
  "\x7b\"grid_size\": 9223372036854775808, \"start_pos\": \x7b\"x\": 0, \"y\": 0\x7d, " ++
  "\"entities\": [\x7b\"id\": \"e\", \"type\": \"end\", \"x\": 1, \"y\": 0\x7d], " ++
  "\"solution\": [\x7b\"type\": \"MOVE\"\x7d]\x7d"

theorem parse_vastSource :
    ∃ l, Level.parse vastSource = .ok l ∧ Nat.pow 2 63 ≤ l.size ∧ l.solution = [.basic .move] := by
  have hparse : (Level.parse vastSource).map
      (fun l => (decide (Nat.pow 2 63 ≤ l.size), l.solution)) = .ok (true, [.basic .move]) := by
    decide +kernel
  cases hvast : Level.parse vastSource with
  | error r =>
    rw [hvast] at hparse
    cases hparse
  | ok l =>
    rw [hvast] at hparse
    obtain ⟨hsize, hsolution⟩ := Prod.ext_iff.mp (Except.ok.inj hparse)
    exact ⟨l, rfl, of_decide_eq_true hsize, hsolution⟩

/-- A session that runs a program comes to no status if the board at the end cannot be drawn. -/
theorem exists_plays_not_exit :
    ¬∀ (o : Options) (read : Reader) (l : Level) (program : Program) (m : Int),
      o.Plays read l program → program ≠ [] → o.maxSteps = some m → o.delay = some .zero →
        (o.run read false).ending = .exit 0 ∨ (o.run read false).ending = .exit 2 := by
  intro hall
  let o : Options := { levelFile := some "l" }
  let read : Reader := fun _ => .ok vastSource.toUTF8
  obtain ⟨l, hvast, hsize, hsolution⟩ := parse_vastSource
  have htext : read.text "l" = .ok vastSource := Reader.text_eq_ok (by decide) rfl
  have hlevel : o.loadLevel read = .ok l := loadLevel_of_file (by decide) htext hvast
  have hplays : o.Plays read l l.solution := ⟨⟨hlevel, rfl, rfl⟩, rfl, nofun⟩
  have hne : l.solution ≠ [] := by simp [hsolution]
  have hfault : Board.fault? l.size = some .uncountable := if_pos hsize
  have hboard (r : Robot) : boardText l r = .error .uncountable := by
    simp only [boardText, Board.draw?, hfault]
    rfl
  obtain ⟨k, hend⟩ := l.solution.exists_endsAfter l o.config
  obtain ⟨effects, hplay, -⟩ := play_eq hne (n := 0) (by decide +kernel) (by simp [o]) hend
  have habort : (o.run read false).ending = .abort (.board .uncountable) := by
    rw [hplays.run_eq_play, hplay]
    exact (conclude_ending _ _ _).1 _ (hboard _)
  have hexit := hall o read l l.solution 1000 hplays hne rfl rfl
  rw [habort] at hexit
  simp at hexit

end Options

end CommandLine

end GridRobot
