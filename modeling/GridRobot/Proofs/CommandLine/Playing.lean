import Mathlib.Data.List.TakeWhile
import GridRobot.CommandLine.Session
import GridRobot.Proofs.Execution.Printed

/-!
# What a session does that runs a program

Between the notice at its start and the board at its end, a session prints what the run prints. What
else it does, events and pauses, does not show on the standard output, and with a limit and a pause
that can be counted nothing breaks the run off.
-/

namespace GridRobot

theorem Text.endLines_append (as bs : List String) :
    endLines (as ++ bs) = endLines as ++ endLines bs := by
  simp [endLines]

theorem Text.endLines_flatMap {α : Type} (f : α → List String) (as : List α) :
    endLines (as.flatMap f) = String.join (as.map fun a => endLines (f a)) := by
  induction as with
  | nil => rfl
  | cons a as ih =>
    rw [List.flatMap_cons, endLines_append, ih, List.map_cons, String.join_cons]

/-- Every run has an end. -/
theorem Program.exists_endsAfter (program : Program) (level : Level) (config : Config) :
    ∃ k, program.EndsAfter level config k :=
  Ends.exists_of_running _ (Robot.start_running level) _

namespace CommandLine

namespace Session

variable {e : Ending}

theorem stdout_append (as bs : List Effect) (e : Ending) :
    stdout ⟨as ++ bs, e⟩ = stdout ⟨as, e⟩ ++ stdout ⟨bs, e⟩ := by
  simp [stdout]

theorem stdout_flatMap {α : Type} (f : α → List Effect) (as : List α) (e : Ending) :
    stdout ⟨as.flatMap f, e⟩ = String.join (as.map fun a => stdout ⟨f a, e⟩) := by
  induction as with
  | nil => rfl
  | cons a as ih => rw [List.flatMap_cons, stdout_append, ih, List.map_cons, String.join_cons]

theorem stdout_print (text : String) (e : Ending) : stdout ⟨[.print text], e⟩ = text := by
  simp [stdout]

theorem stdout_lines (lines : List String) (e : Ending) :
    stdout ⟨lines.map fun line => .print (line ++ "\n"), e⟩ = Text.endLines lines := by
  simp [stdout, Text.endLines, List.filterMap_map]

/-- Effects that print nothing. -/
theorem stdout_eq_empty {effects : List Effect} (h : ∀ text, .print text ∉ effects) (e : Ending) :
    stdout ⟨effects, e⟩ = "" := by
  rw [stdout, List.filterMap_eq_nil_iff.mpr]
  · rfl
  · intro x hx
    cases x with
    | print text => exact absurd hx (h text)
    | _ => rfl

end Session

namespace Options

open Session

/-- A level and a program are loaded, because more than the board is asked for. -/
structure Loads (o : Options) (read : Reader) (l : Level) (program : Program) : Prop where
  level : o.loadLevel read = .ok l
  more : o.gridOnly = false
  source : o.loadProgram read l = .ok program

/-- The program that is loaded is to be run, and a strict session finds nothing against it. -/
structure Plays (o : Options) (read : Reader) (l : Level) (program : Program) : Prop
    extends Loads o read l program where
  run : o.traceOnly = false
  palette : o.strict = true → program.checkPalette l = .ok ()

variable {o : Options} {read : Reader} {l : Level} {program : Program} {n : Nat}

theorem Loads.run_eq_trace (h : o.Loads read l program) (htrace : o.traceOnly = true) :
    o.run read false =
      ⟨o.notice l ++ [.print (Text.endLines ["═══ Trace ═══", program.listing])], .exit 0⟩ := by
  simp only [run, h.level, h.more, h.source, htrace, Bool.false_eq_true, ↓reduceIte]

theorem Plays.run_eq_play (h : o.Plays read l program) :
    o.run read false = o.play false l program := by
  have hpalette : (if o.strict then program.checkPalette l else .ok ()) = .ok () := by
    split
    · exact h.palette ‹_›
    · rfl
  simp only [Options.run, h.level, h.more, h.source, h.run, hpalette, Bool.false_eq_true,
    ↓reduceIte]

theorem stdout_report (o : Options) (details : Bool) (events : List Event) (e : Ending) :
    stdout ⟨o.report details events, e⟩ = "" :=
  stdout_eq_empty (by simp [report]) e

theorem stdout_tickEffects (o : Options) (details : Bool) (p : Playback) (e : Ending) :
    stdout ⟨o.tickEffects details p, e⟩ = Text.endLines p.tickLines := by
  rw [tickEffects, stdout_append, stdout_lines, stdout_report, String.append_empty]

/-- With a pause that can be counted a tick is followed by that pause, or by none. -/
theorem pauseAfter_eq (hdelay : o.delay.map pauseLength = some (.ok n)) (next : Playback) :
    ∃ pause, (∀ text, .print text ∉ pause) ∧ o.pauseAfter next = .ok pause := by
  rw [pauseAfter, hdelay]
  cases next.running with
  | false => exact ⟨[], by simp, rfl⟩
  | true => exact ⟨if n = 0 then [] else [.pause n], by split <;> simp, rfl⟩

/-- Unless a step is due and there is no limit, a session that does not watch the details goes
through a run to its end, and prints what the run prints. -/
theorem runEffects_eq (hdelay : o.delay.map pauseLength = some (.ok n)) {p : Playback}
    (hlimit : o.maxSteps = none → p.trace = #[]) :
    ∃ effects, o.runEffects false p = (effects, none) ∧
      ∀ e, stdout ⟨effects, e⟩ = Text.endLines ((p.trail []).flatMap Playback.tickLines) := by
  have hgo : (o.maxSteps.isNone && !p.trace.isEmpty) = false := by
    cases h : o.maxSteps with
    | none => simp [hlimit h]
    | some _ => rfl
  -- The first tick decides on the pause; should it end the run, none is made.
  obtain ⟨pause, hpause, hafter⟩ := pauseAfter_eq hdelay p.tick.1
  have hnone (q : Playback) : unwritable? false q = none := rfl
  have hall : (p.trail []).takeWhile (fun q => (unwritable? false q).isNone) = p.trail [] := by
    rw [List.takeWhile_eq_self_iff]
    exact fun _ _ => rfl
  have hbreak : (p.trail []).findSome? (unwritable? false) = none := by
    rw [List.findSome?_eq_none_iff]
    exact fun q _ => hnone q
  refine ⟨(p.trail []).flatMap fun q =>
    o.tickEffects false q ++ if q.tick.1.running then pause else [], ?_, ?_⟩
  · simp only [runEffects, hgo, hnone p, hafter, hall, hbreak, Bool.false_eq_true, ↓reduceIte,
      Option.map_none]
  · intro e
    rw [stdout_flatMap, Text.endLines_flatMap]
    congr 1
    refine List.map_congr_left fun q _ => ?_
    rw [stdout_append, stdout_tickEffects, stdout_eq_empty, String.append_empty]
    split
    · exact hpause
    · simp

/-- A session that runs a program with blocks goes to the end of the run, and shows it. -/
theorem play_eq {k : Nat} (hne : program ≠ [])
    (hdelay : o.delay.map pauseLength = some (.ok n))
    (hlimit : o.maxSteps = none → program.compile = #[])
    (hend : program.EndsAfter l o.config k) :
    let conclusion := conclude program l (.finished program l o.config k)
    ∃ effects, o.play false l program = ⟨effects ++ conclusion.effects, conclusion.ending⟩ ∧
      ∀ e, stdout ⟨effects, e⟩ =
        stdout ⟨o.notice l, e⟩ ++ Text.endLines (program.printed l o.config k) := by
  intro conclusion
  have hready : Playback.Ready program l o.config 0 := Playback.ready_zero
  have hstart := Playback.start_eq_before (Playback.new_tracks program l o.config) hne
  obtain ⟨effects, hrun, hstdout⟩ :=
    runEffects_eq (p := .before program l o.config 0) hdelay hlimit
  obtain ⟨k', -, hend', hdrain⟩ := Playback.drain_before hready 0
  obtain rfl : k' = k := Ends.unique hend' hend
  refine ⟨o.notice l ++ o.report false (Playback.new program l o.config).startEvents ++ effects,
    ?_, ?_⟩
  · simp only [play, hstart, hrun, hdrain]
    rfl
  · intro e
    rw [stdout_append, stdout_append, stdout_report, String.append_empty, hstdout,
      Playback.trail_lines_before_zero hend]

theorem conclude_ending (program : Program) (l : Level) (ended : Playback) :
    (∀ f, boardText l ended.robot = .error f →
      (conclude program l ended).ending = .abort (.board f)) ∧
    (∀ board, boardText l ended.robot = .ok board →
      (conclude program l ended).ending = .exit (if ended.robot.won then 0 else 2)) := by
  constructor <;> intro _ h <;> rw [conclude, h]

end Options

end CommandLine

end GridRobot
