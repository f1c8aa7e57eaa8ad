import GridRobot.Proofs.CommandLine.Playing

/-!
# How a session ends

A session comes through, fails with an error that it reports, or breaks off without a report. What
leads to each is said by a predicate on the options and the files, one case for each point at which
it can happen. The main statement says that the predicates hold exactly where the session ends so.
-/

namespace GridRobot.CommandLine

/-- Why no text is read from a file, where this is not reported. -/
inductive Reader.BreaksOff (read : Reader) (name : String) : Abort → Prop
  | path (null : '\x00' ∈ name.toList) : read.BreaksOff name .nullInPath
  | content {bytes : ByteArray} (path : '\x00' ∉ name.toList)
      (content : read (.ofText name) = .ok bytes) (coding : String.fromUTF8? bytes = none) :
      read.BreaksOff name .undecodable

theorem Reader.text_eq_abort_iff {read : Reader} {name : String} {a : Abort} :
    read.text name = .error (.inl a) ↔ read.BreaksOff name a := by
  rw [text]
  by_cases hnull : '\x00' ∈ name.toList
  · rw [if_pos hnull]
    constructor
    · rintro ⟨⟩
      exact .path hnull
    · intro h
      cases h with
      | path => rfl
      | content path => exact absurd hnull path
  · rw [if_neg hnull]
    constructor
    · intro h
      cases hread : read (.ofText name) with
      | error e => rw [hread] at h; cases h
      | ok bytes =>
        cases htext : String.fromUTF8? bytes with
        | some text => simp [hread, htext] at h
        | none =>
          simp only [hread, htext] at h
          cases h
          exact .content hnull hread htext
    · intro h
      cases h with
      | path null => exact absurd null hnull
      | content path content coding => simp only [content, coding]

/-- What a text is rejected for is reported. -/
theorem parse_eq_abort_iff {α : Type} {text : Except (Abort ⊕ Failure) String}
    {parse : String → Except Rejection α} {a : Abort} :
    (text >>= fun t => (parse t).mapError fun e => .inr (.rejected e)) = .error (.inl a) ↔
      text = .error (.inl a) := by
  cases text with
  | error x => simp [bind, Except.bind]
  | ok t => cases h : parse t <;> simp [bind, Except.bind, Except.mapError, h]

namespace Session

theorem failed_nil (e : Failure) : (failed [] e).stderr = "error: " ++ e.message ++ "\n" ∧
    (failed [] e).stdout = "" := by
  simp [failed, stderr, stdout]

theorem failed_print (text : String) (e : Failure) :
    (failed [.print text] e).stderr = "error: " ++ e.message ++ "\n" ∧
      (failed [.print text] e).stdout = text := by
  simp [failed, stderr, stdout]

end Session

namespace Options

/-- The errors that a session reports: no level, no program, a program that breaks the rules of the
palette in a strict session, and one without blocks. -/
inductive Fails (o : Options) (read : Reader) : Failure → Prop
  | level {e : Failure} (refused : o.loadLevel read = .error (.inr e)) : o.Fails read e
  | program {l : Level} {e : Failure} (level : o.loadLevel read = .ok l) (more : o.gridOnly = false)
      (refused : o.loadProgram read l = .error (.inr e)) : o.Fails read e
  | palette {l : Level} {program : Program} {v : Violation} (loads : o.Loads read l program)
      (run : o.traceOnly = false) (strict : o.strict = true)
      (refused : program.checkPalette l = .error v) : o.Fails read (.violation v)
  | start {l : Level} (plays : o.Plays read l []) : o.Fails read (.run .emptyProgram)

/-- What a session breaks off at: a text that cannot be decoded or a path that is none, a board of a
size that no row can have, and a missing limit once a step is due. Memory is taken to suffice, for
the trace of a program as well as for a board. -/
inductive BreaksOff (o : Options) (read : Reader) : Abort → Prop
  | level {name : String} {a : Abort} (file : given o.levelFile = some name)
      (text : read.BreaksOff name a) : o.BreaksOff read a
  | program {l : Level} {name : String} {a : Abort} (level : o.loadLevel read = .ok l)
      (more : o.gridOnly = false) (file : given o.file = some name)
      (text : read.BreaksOff name a) : o.BreaksOff read a
  | board {l : Level} {f : Board.Fault} (level : o.loadLevel read = .ok l)
      (only : o.gridOnly = true) (board : boardText l (.start l) = .error f) :
      o.BreaksOff read (.board f)
  | limit {l : Level} {program : Program} (plays : o.Plays read l program)
      (none : o.maxSteps = none) (step : program.compile ≠ #[]) : o.BreaksOff read .noStepLimit
  | final {l : Level} {program : Program} {k : Nat} {f : Board.Fault}
      (plays : o.Plays read l program) (blocks : program ≠ [])
      (limit : o.maxSteps = none → program.compile = #[])
      (ends : program.EndsAfter l o.config k)
      (board : boardText l (program.robotAfter l k) = .error f) : o.BreaksOff read (.board f)

/-- How a session comes through, and with which status. -/
inductive Succeeds (o : Options) (read : Reader) : Nat → Prop
  | board {l : Level} {text : String} (level : o.loadLevel read = .ok l)
      (only : o.gridOnly = true) (board : boardText l (.start l) = .ok text) : o.Succeeds read 0
  | trace {l : Level} {program : Program} (loads : o.Loads read l program)
      (only : o.traceOnly = true) : o.Succeeds read 0
  | final {l : Level} {program : Program} {k : Nat} {text : String}
      (plays : o.Plays read l program) (blocks : program ≠ [])
      (limit : o.maxSteps = none → program.compile = #[])
      (ends : program.EndsAfter l o.config k)
      (board : boardText l (program.robotAfter l k) = .ok text) :
      o.Succeeds read (if (program.robotAfter l k).won then 0 else 2)

variable {o : Options} {read : Reader} {l : Level} {program : Program} {n : Nat}

theorem loadLevel_eq_abort_iff {a : Abort} : o.loadLevel read = .error (.inl a) ↔
    ∃ name, given o.levelFile = some name ∧ read.BreaksOff name a := by
  rw [loadLevel]
  cases given o.levelFile with
  | some name =>
    rw [parse_eq_abort_iff, Reader.text_eq_abort_iff]
    simp
  | none =>
    cases o.level with
    | some n => cases h : Campaign.level n <;> simp [Except.mapError, h]
    | none => simp

theorem loadProgram_eq_abort_iff {a : Abort} : o.loadProgram read l = .error (.inl a) ↔
    ∃ name, given o.file = some name ∧ read.BreaksOff name a := by
  rw [loadProgram]
  cases given o.file with
  | some name =>
    rw [parse_eq_abort_iff, Reader.text_eq_abort_iff]
    simp
  | none => simp

/-- A session that fails has printed no more than its notice. -/
theorem Fails.run_eq {e : Failure} (h : o.Fails read e) :
    ∃ effects, o.run read false = .failed effects e ∧
      (effects = [] ∨ ∃ l, o.loadLevel read = .ok l ∧ effects = o.notice l) := by
  cases h with
  | level refused =>
    refine ⟨[], ?_, .inl rfl⟩
    simp only [run, refused, Session.stopped]
  | program level more refused =>
    refine ⟨[], ?_, .inl rfl⟩
    simp only [run, level, more, refused, Session.stopped, Bool.false_eq_true, ↓reduceIte]
  | @palette l _ _ loads htrace strict refused =>
    refine ⟨o.notice l, ?_, .inr ⟨l, loads.level, rfl⟩⟩
    simp only [run, loads.level, loads.more, loads.source, htrace, strict, refused,
      Bool.false_eq_true, ↓reduceIte]
  | @start l plays =>
    refine ⟨o.notice l, ?_, .inr ⟨l, plays.level, rfl⟩⟩
    have hstart := (Playback.start_eq_error_iff (Playback.new_tracks [] l o.config)).mpr rfl
    rw [plays.run_eq_play, play, hstart]

theorem BreaksOff.ending (hdelay : o.delay.map pauseLength = some (.ok n)) {a : Abort}
    (h : o.BreaksOff read a) : (o.run read false).ending = .abort a := by
  cases h with
  | level file text =>
    have hlevel := loadLevel_eq_abort_iff.mpr ⟨_, file, text⟩
    simp only [run, hlevel, Session.stopped]
  | @program l _ _ level more file text =>
    have hprogram := (loadProgram_eq_abort_iff (l := l)).mpr ⟨_, file, text⟩
    simp only [run, level, more, hprogram, Session.stopped, Bool.false_eq_true, ↓reduceIte]
  | board level only board => simp only [run, level, only, board, ↓reduceIte]
  | @limit l program plays none step =>
    -- Where a step is due there is a block, so the start is not refused before the limit is missed.
    have hne : program ≠ [] := by
      rintro rfl
      exact step (Array.toList_eq_nil_iff.mp (Program.compile_toList []))
    have hstart := Playback.start_eq_before (Playback.new_tracks program l o.config) hne
    have hdue : (o.maxSteps.isNone &&
        !(Playback.before program l o.config 0).trace.isEmpty) = true := by
      simp [none, Playback.before, step]
    rw [plays.run_eq_play, play, hstart]
    simp only [runEffects, hdue, ↓reduceIte]
  | @final l program k f plays blocks limit ends board =>
    obtain ⟨effects, hplay, -⟩ := play_eq blocks hdelay limit ends
    rw [plays.run_eq_play, hplay]
    exact (conclude_ending _ _ _).1 f board

theorem Succeeds.ending (hdelay : o.delay.map pauseLength = some (.ok n)) {status : Nat}
    (h : o.Succeeds read status) : (o.run read false).ending = .exit status := by
  cases h with
  | board level only board => simp only [run, level, only, board, ↓reduceIte]
  | trace loads only => rw [loads.run_eq_trace only]
  | final plays blocks limit ends board =>
    obtain ⟨effects, hplay, -⟩ := play_eq blocks hdelay limit ends
    rw [plays.run_eq_play, hplay]
    exact (conclude_ending _ _ _).2 _ board

theorem Succeeds.status {status : Nat} (h : o.Succeeds read status) : status = 0 ∨ status = 2 := by
  cases h with
  | board => exact .inl rfl
  | trace => exact .inl rfl
  | final => split <;> simp

/-- Once a program is to be run, the session fails, breaks off or comes through. -/
theorem Plays.course (h : o.Plays read l program) :
    (∃ e, o.Fails read e) ∨ (∃ a, o.BreaksOff read a) ∨ ∃ status, o.Succeeds read status := by
  by_cases hne : program = []
  · subst hne
    exact .inl ⟨_, .start h⟩
  by_cases hlimit : o.maxSteps = none → program.compile = #[]
  · obtain ⟨k, hend⟩ := program.exists_endsAfter l o.config
    cases hboard : boardText l (program.robotAfter l k) with
    | error f => exact .inr (.inl ⟨_, .final h hne hlimit hend hboard⟩)
    | ok text => exact .inr (.inr ⟨_, .final h hne hlimit hend hboard⟩)
  · obtain ⟨hnone, hstep⟩ := Classical.not_imp.mp hlimit
    exact .inr (.inl ⟨_, .limit h hnone hstep⟩)

/-- A session fails, breaks off or comes through. -/
theorem course (o : Options) (read : Reader) :
    (∃ e, o.Fails read e) ∨ (∃ a, o.BreaksOff read a) ∨ ∃ status, o.Succeeds read status := by
  -- The cases are those of the session, in its order: what it meets first decides.
  cases hlevel : o.loadLevel read with
  | error x =>
    cases x with
    | inl a =>
      obtain ⟨name, hfile, htext⟩ := loadLevel_eq_abort_iff.mp hlevel
      exact .inr (.inl ⟨a, .level hfile htext⟩)
    | inr e => exact .inl ⟨e, .level hlevel⟩
  | ok l =>
    cases hgrid : o.gridOnly with
    | true =>
      cases hboard : boardText l (.start l) with
      | error f => exact .inr (.inl ⟨_, .board hlevel hgrid hboard⟩)
      | ok text => exact .inr (.inr ⟨_, .board hlevel hgrid hboard⟩)
    | false =>
      cases hprogram : o.loadProgram read l with
      | error x =>
        cases x with
        | inl a =>
          obtain ⟨name, hfile, htext⟩ := loadProgram_eq_abort_iff.mp hprogram
          exact .inr (.inl ⟨a, .program hlevel hgrid hfile htext⟩)
        | inr e => exact .inl ⟨e, .program hlevel hgrid hprogram⟩
      | ok program =>
        have hloads : o.Loads read l program := ⟨hlevel, hgrid, hprogram⟩
        cases htrace : o.traceOnly with
        | true => exact .inr (.inr ⟨_, .trace hloads htrace⟩)
        | false =>
          by_cases hpalette : o.strict = true → program.checkPalette l = .ok ()
          · exact Plays.course ⟨hloads, htrace, hpalette⟩
          · obtain ⟨hstrict, hrefused⟩ := Classical.not_imp.mp hpalette
            cases hcheck : program.checkPalette l with
            | ok u => exact absurd hcheck hrefused
            | error v => exact .inl ⟨_, .palette hloads htrace hstrict hcheck⟩

/-- For the board alone the program file does not count, nor does anything else that could be read
but the level. -/
theorem run_of_gridOnly (hgrid : o.gridOnly = true) (file : Option String) {read' : Reader}
    (hread : ∀ name, given o.levelFile = some name → read' (.ofText name) = read (.ofText name)) :
    { o with file }.run read' false = o.run read false := by
  have hlevel : { o with file }.loadLevel read' = o.loadLevel read := by
    simp only [loadLevel]
    cases hname : given o.levelFile with
    | none => rfl
    | some name => simp only [Reader.text, hread name hname]
  simp only [run, hlevel]
  simp only [hgrid, ↓reduceIte]

/-- For the board or the trace alone nothing is run: the settings of a run do not count. -/
theorem run_of_only (honly : o.gridOnly = true ∨ o.traceOnly = true) (maxSteps : Option Int)
    (delay : Option Double) (strict verbose : Bool) :
    { o with maxSteps, delay, strict, verbose }.run read false = o.run read false := by
  have hlevel : { o with maxSteps, delay, strict, verbose }.loadLevel read = o.loadLevel read := rfl
  have hprogram : { o with maxSteps, delay, strict, verbose }.loadProgram read =
      o.loadProgram read := rfl
  have hnotice : { o with maxSteps, delay, strict, verbose }.notice = o.notice := rfl
  simp only [run, hlevel, hprogram, hnotice]
  rcases honly with hgrid | htrace
  · simp only [hgrid, ↓reduceIte]
  · simp only [htrace, ↓reduceIte]

/-- For the board or the trace alone there is only text: no step is reported and no pause is made.
-/
theorem effects_of_only (honly : o.gridOnly = true ∨ o.traceOnly = true) {x : Effect}
    (hx : x ∈ (o.run read false).effects) : ∃ text, x = .print text ∨ x = .complain text := by
  have hnotice (l : Level) : ∀ x ∈ o.notice l, ∃ text, x = .print text ∨ x = .complain text := by
    unfold notice
    split <;> simp
  have hstopped (e : Abort ⊕ Failure) :
      ∀ x ∈ (Session.stopped e).effects, ∃ text, x = .print text ∨ x = .complain text := by
    cases e <;> simp [Session.stopped, Session.failed]
  rw [run] at hx
  cases hlevel : o.loadLevel read with
  | error e =>
    rw [hlevel] at hx
    exact hstopped e x hx
  | ok l =>
    cases hgrid : o.gridOnly with
    | true => cases h : boardText l (.start l) <;> simp_all
    | false =>
      have htrace : o.traceOnly = true := honly.resolve_left (by simp [hgrid])
      cases hprogram : o.loadProgram read l with
      | error e =>
        simp only [hlevel, hgrid, hprogram, Bool.false_eq_true, ↓reduceIte] at hx
        exact hstopped e x hx
      | ok program =>
        simp only [hlevel, hgrid, hprogram, htrace, Bool.false_eq_true, ↓reduceIte] at hx
        rcases List.mem_append.mp hx with hx | hx
        · exact hnotice l x hx
        · exact ⟨_, .inl (List.mem_singleton.mp hx)⟩

/-- What a session complains about that fails, and what it has printed. -/
theorem Fails.output {e : Failure} (h : o.Fails read e) :
    (o.run read false).stderr = "error: " ++ e.message ++ "\n" ∧
      ((o.run read false).stdout = "" ∨ ∃ l, o.loadLevel read = .ok l ∧
        (o.run read false).stdout =
          s!"No program file provided. Using the solution for '{l.name}'.\n") := by
  obtain ⟨effects, hrun, heffects⟩ := h.run_eq
  rw [hrun]
  rcases heffects with rfl | ⟨l, hl, rfl⟩
  · obtain ⟨herr, hout⟩ := Session.failed_nil e
    exact ⟨herr, .inl hout⟩
  · rw [notice]
    cases given o.file with
    | some name =>
      obtain ⟨herr, hout⟩ := Session.failed_nil e
      exact ⟨herr, .inl hout⟩
    | none =>
      obtain ⟨herr, hout⟩ := Session.failed_print
        s!"No program file provided. Using the solution for '{l.name}'.\n" e
      exact ⟨herr, .inr ⟨l, hl, hout⟩⟩

/-- Where a pause can be counted, a session ends with one of three statuses unless it breaks off,
which it does exactly at what it reads or draws, or for want of a limit. The status is one exactly
for the errors that are reported; then there is one line to say which, and neither a board nor a
state has been printed. For the board alone no program is read, and for the board or the trace alone
nothing is run. -/
theorem run_ending (o : Options) (read : Reader) {n : Nat}
    (hdelay : o.delay.map pauseLength = some (.ok n)) :
    let s := o.run read false
    ((∃ status, status ≤ 2 ∧ s.ending = .exit status) ↔ ¬∃ a, o.BreaksOff read a) ∧
    (∀ a, s.ending = .abort a ↔ o.BreaksOff read a) ∧
    (s.ending = .exit 1 ↔ ∃ e, o.Fails read e) ∧
    (∀ e, o.Fails read e → s.stderr = "error: " ++ e.message ++ "\n" ∧
      (s.stdout = "" ∨ ∃ l, o.loadLevel read = .ok l ∧
        s.stdout = s!"No program file provided. Using the solution for '{l.name}'.\n")) ∧
    (o.gridOnly = true → ∀ file read',
      (∀ name, given o.levelFile = some name → read' (.ofText name) = read (.ofText name)) →
      { o with file }.run read' false = s) ∧
    (o.gridOnly = true ∨ o.traceOnly = true →
      (∀ x ∈ s.effects, ∃ text, x = .print text ∨ x = .complain text) ∧
      ∀ maxSteps delay strict verbose,
        { o with maxSteps, delay, strict, verbose }.run read false = s) := by
  intro s
  have hfails {e : Failure} (h : o.Fails read e) : s.ending = .exit 1 := by
    obtain ⟨effects, hrun, -⟩ := h.run_eq
    exact congrArg Session.ending hrun
  have hbreaks {a : Abort} (h : o.BreaksOff read a) : s.ending = .abort a := h.ending hdelay
  have hsucceeds {status : Nat} (h : o.Succeeds read status) : s.ending = .exit status :=
    h.ending hdelay
  refine ⟨?_, ?_, ?_, fun e h => h.output, fun hgrid file read' => run_of_gridOnly hgrid file,
    fun honly => ⟨fun x => effects_of_only honly, run_of_only honly⟩⟩
  · constructor
    · rintro ⟨status, -, hexit⟩ ⟨a, hbreak⟩
      rw [hbreaks hbreak] at hexit
      cases hexit
    · intro hno
      rcases course o read with ⟨e, h⟩ | h | ⟨status, h⟩
      · exact ⟨1, by omega, hfails h⟩
      · exact absurd h hno
      · have := h.status
        exact ⟨status, by omega, hsucceeds h⟩
  · intro a
    constructor
    · intro habort
      rcases course o read with ⟨e, h⟩ | ⟨b, h⟩ | ⟨status, h⟩
      · rw [hfails h] at habort
        cases habort
      · rw [hbreaks h] at habort
        cases habort
        exact h
      · rw [hsucceeds h] at habort
        cases habort
    · exact hbreaks
  · constructor
    · intro hexit
      rcases course o read with h | ⟨a, h⟩ | ⟨status, h⟩
      · exact h
      · rw [hbreaks h] at hexit
        cases hexit
      · have := h.status
        rw [hsucceeds h] at hexit
        cases hexit
        omega
    · rintro ⟨e, h⟩
      exact hfails h

/-- There is no level with the number nine. -/
theorem run_ending_unknownLevel :
    let o : Options := { level := some 9 }
    let read : Reader := fun _ => .error .notFound
    o.delay.map pauseLength = some (.ok 0) ∧ (o.run read false).ending = .exit 1 ∧
      (o.run read false).stderr = "error: No level with id 9\n" := by
  intro o read
  have hdelay : o.delay.map pauseLength = some (.ok 0) := by decide +kernel
  have hfails : o.Fails read (.unknownLevel ⟨9⟩) := .level rfl
  obtain ⟨-, -, hexit, herror, -⟩ := run_ending o read hdelay
  refine ⟨hdelay, hexit.mpr ⟨_, hfails⟩, (herror _ hfails).1.trans ?_⟩
  decide +kernel

/-- A program file that is not UTF-8 is read, and then the session has no status. -/
theorem exists_run_not_exit :
    ¬∀ (arguments : List String) (o : Options) (read : Reader),
      Options.parse arguments = .ok o → o.delay = some .zero →
        ∃ status, status ≤ 2 ∧ (o.run read false).ending = .exit status := by
  intro hall
  let read : Reader := fun path =>
    if path = .ofText "p.json" then .ok ⟨#[0xff]⟩ else .error .notFound
  obtain ⟨status, -, hexit⟩ := hall ["p.json"] { file := some "p.json" } read rfl rfl
  have hbreak : BreaksOff { file := some "p.json" } read .undecodable :=
    .program (l := Campaign.initiation) rfl rfl rfl
      (.content (by decide) (if_pos rfl) (by decide +kernel))
  rw [hbreak.ending (n := 0) (by decide +kernel)] at hexit
  cases hexit

end Options

end GridRobot.CommandLine
