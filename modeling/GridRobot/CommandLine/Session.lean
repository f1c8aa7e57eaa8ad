import GridRobot.Board
import GridRobot.Campaign.Levels
import GridRobot.CommandLine.Files
import GridRobot.CommandLine.Options
import GridRobot.CommandLine.Pause
import GridRobot.Level.Source
import GridRobot.Playback.Watched
import GridRobot.Robot.Source
import GridRobot.Trace.Listing

/-!
# Sessions

What the program does for given options: it loads a level and a program, runs the one on the other,
and shows the board and the robot at the end. The status is zero for a win, two for any other end of
the run, and one for an error. A setting without a value matters only where the session comes to
need it.
-/

namespace GridRobot.CommandLine

inductive Effect where
  | print (text : String)
  | complain (text : String)
  /-- An event, and whether the session shows it. -/
  | event (e : Event) (shown : Bool)
  | pause (nanoseconds : Nat)
  deriving DecidableEq, Repr

/-- An error that the program reports. -/
inductive Failure where
  | unknownLevel (e : UnknownLevel)
  /-- No level is asked for. -/
  | noLevel
  | file (path : FilePath) (e : FileFault)
  | rejected (e : Rejection)
  | violation (e : Violation)
  | run (e : RunError)
  deriving DecidableEq, Repr

def Failure.message : Failure → String
  | unknownLevel e => e.message
  | noLevel => "No level with id []"
  | file path e => s!"[Errno {e.code}] {e.description}: {Text.quoted path.text}"
  | rejected e => e.summary
  | violation e => e.message
  | run e => e.message

/-- What the program does not report but breaks off at. -/
inductive Abort where
  /-- A file is not UTF-8. -/
  | undecodable
  /-- A path contains the null character. -/
  | nullInPath
  /-- A step is due, and there is no limit that it could exceed. -/
  | noStepLimit
  /-- The run goes on, and there is no delay that could tell how long to pause. -/
  | noDelay
  | pause (f : PauseFault)
  | board (f : Board.Fault)
  /-- The log of details is kept, and cannot be written. -/
  | log (u : Unwritable)
  deriving DecidableEq, Repr

def Abort.description : Abort → String
  | undecodable => "a file is not UTF-8"
  | nullInPath => "a path contains the null character"
  | noStepLimit => "there is no step limit"
  | noDelay => "there is no delay"
  | pause .tooLong => "the delay is too long"
  | pause .negative => "the length of a pause is negative"
  | board .uncountable => "the size of the board is out of range"
  | board .unaddressable => "the rows of the board are too long"
  | log _ => "a number is too long for the log"

inductive Ending where
  | exit (status : Nat)
  | abort (a : Abort)
  deriving DecidableEq, Repr

structure Session where
  effects : List Effect
  ending : Ending
  deriving DecidableEq, Repr

namespace Session

def stdout (s : Session) : String :=
  String.join (s.effects.filterMap fun | .print text => some text | _ => none)

/-- The complaints, and the events that are shown, one on a line. -/
def stderr (s : Session) : String :=
  String.join <| s.effects.filterMap fun
    | .complain text => some text
    | .event e true => some (e.line ++ "\n")
    | _ => none

/-- All events, shown or not. -/
def events (s : Session) : List Event :=
  s.effects.filterMap fun | .event e _ => some e | _ => none

/-- A session that ends with an error. -/
def failed (effects : List Effect) (e : Failure) : Session :=
  ⟨effects ++ [.complain ("error: " ++ e.message ++ "\n")], .exit 1⟩

/-- A session that ends because something could not be loaded. -/
def stopped : Abort ⊕ Failure → Session
  | .inl a => ⟨[], .abort a⟩
  | .inr e => failed [] e

end Session

/-- How the content of a file is obtained. -/
abbrev Reader := FilePath → Except FileFault ByteArray

/-- Reads a text from a file. -/
def Reader.text (read : Reader) (name : String) : Except (Abort ⊕ Failure) String :=
  let path := FilePath.ofText name
  if '\x00' ∈ name.toList then .error (.inl .nullInPath)
  else match read path with
    | .error e => .error (.inr (.file path e))
    | .ok bytes =>
      match String.fromUTF8? bytes with
      | some text => .ok text
      | none => .error (.inl .undecodable)

namespace Options

/-- The name of a file; the empty name stands for none. -/
def given (name : Option String) : Option String := name.filter (· ≠ "")

def loadLevel (o : Options) (read : Reader) : Except (Abort ⊕ Failure) Level :=
  match given o.levelFile with
  | some name => do
    let text ← read.text name
    (Level.parse text).mapError fun e => .inr (.rejected e)
  | none =>
    match o.level with
    | some n => (Campaign.level n).mapError fun e => .inr (.unknownLevel e)
    | none => .error (.inr .noLevel)

/-- Without a program file, the solution of the level stands in. -/
def loadProgram (o : Options) (read : Reader) (l : Level) : Except (Abort ⊕ Failure) Program :=
  match given o.file with
  | some name => do
    let text ← read.text name
    (Program.parse text).mapError fun e => .inr (.rejected e)
  | none => .ok l.solution

def notice (o : Options) (l : Level) : List Effect :=
  match given o.file with
  | some _ => []
  | none => [.print s!"No program file provided. Using the solution for '{l.name}'.\n"]

/-- What a playback runs with. A value that is missing counts as zero. -/
def config (o : Options) : Config := ⟨o.maxSteps.getD 0, o.delay.getD .zero, o.verbose⟩

/-- Whether an event is shown: only in verbose sessions, and details on demand. -/
def shows (o : Options) (details : Bool) (e : Event) : Bool :=
  o.verbose && (details || e.severity == .info)

def report (o : Options) (details : Bool) (events : List Event) : List Effect :=
  events.map fun e => .event e (o.shows details e)

/-- What a tick of a running playback prints and reports. -/
def tickEffects (o : Options) (details : Bool) (p : Playback) : List Effect :=
  p.tickLines.map (fun line => .print (line ++ "\n")) ++ o.report details p.tickEvents

/-- How long to pause after a tick that leaves a playback running. -/
def pauseAfter (o : Options) (next : Playback) : Except Abort (List Effect) :=
  if !next.running then .ok []
  else match o.delay.map pauseLength with
    | none => .error .noDelay
    | some (.error f) => .error (.pause f)
    | some (.ok n) => .ok (if n = 0 then [] else [.pause n])

/-- What keeps a tick from being watched, if the details are. -/
def unwritable? (details : Bool) (p : Playback) : Option Unwritable :=
  if details then p.unwritable? else none

/-- What a playback that has just started does until its end, or until it cannot go on, and why it
cannot. As all pauses are the same, the first one decides. -/
def runEffects (o : Options) (details : Bool) (started : Playback) : List Effect × Option Abort :=
  if o.maxSteps.isNone && !started.trace.isEmpty then ([], some .noStepLimit)
  else match unwritable? details started, o.pauseAfter started.tick.1 with
    | some u, _ => ([], some (.log u))
    | none, .error a => (o.tickEffects details started, some a)
    | none, .ok pause =>
      let trail := started.trail []
      let watched := trail.takeWhile fun p => (unwritable? details p).isNone
      (watched.flatMap fun p =>
          o.tickEffects details p ++ if p.tick.1.running then pause else [],
        (trail.findSome? (unwritable? details)).map .log)

/-- The lines that show a board. -/
def boardText (l : Level) (r : Robot) : Except Board.Fault String :=
  (Board.draw? l (some r)).map fun b => Text.endLines b.rows

/-- The robot at the end of a run. -/
def stateText (program : Program) (l : Level) (ended : Playback) : String :=
  let outcome := match ended.outcome? with
    | some o => Json.string o.name
    | none => .null
  let state := Json.object <| ended.robot.fields ++
    [("outcome", outcome), ("rating", .string (program.rating l ended.robot.won).name)]
  Text.endLines ["", "═══ Final Robot State ═══", state.text]

/-- Shows the board and the robot at the end of a run. -/
def conclude (program : Program) (l : Level) (ended : Playback) : Session :=
  let heading := Text.endLines ["═══ Grid ═══"]
  match boardText l ended.robot with
  | .error f => ⟨[.print heading], .abort (.board f)⟩
  | .ok board =>
    ⟨[.print (heading ++ board ++ stateText program l ended)],
      .exit (if ended.robot.won then 0 else 2)⟩

/-- Runs a program that has been loaded. -/
def play (o : Options) (details : Bool) (l : Level) (program : Program) : Session :=
  let p := Playback.new program l o.config
  match p.start with
  | .error e => .failed (o.notice l) (.run e)
  | .ok started =>
    let opening := o.notice l ++ o.report details p.startEvents
    match o.runEffects details started with
    | (effects, some a) => ⟨opening ++ effects, .abort a⟩
    | (effects, none) =>
      let conclusion := conclude program l (started.drain 0).1
      ⟨opening ++ effects ++ conclusion.effects, conclusion.ending⟩

/-- What the program does once its options are known. -/
def run (o : Options) (read : Reader) (details : Bool) : Session :=
  match o.loadLevel read with
  | .error e => .stopped e
  | .ok l =>
    if o.gridOnly then
      match boardText l (.start l) with
      | .error f => ⟨[], .abort (.board f)⟩
      | .ok board => ⟨[.print board], .exit 0⟩
    else match o.loadProgram read l with
      | .error e => .stopped e
      | .ok program =>
        if o.traceOnly then
          ⟨o.notice l ++ [.print (Text.endLines ["═══ Trace ═══", program.listing])], .exit 0⟩
        else match if o.strict then program.checkPalette l else .ok () with
          | .error e => .failed (o.notice l) (.violation e)
          | .ok () => o.play details l program

end Options

end GridRobot.CommandLine
