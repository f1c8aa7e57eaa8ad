import GridRobot.CommandLine.Word
import GridRobot.Text.Quoted

/-!
# Options

The options that a command line asks for. The first plain word is the program file, and further ones
are refused, as are unknown options; of an option that is given twice the last value counts. Two
hyphens in the place of a value stand for none: the option then has neither a value nor its default.
-/

namespace GridRobot.CommandLine

structure Options where
  file : Option String := none
  level : Option Int := some 1
  levelFile : Option String := none
  delay : Option Double := some .zero
  maxSteps : Option Int := some 1000
  strict : Bool := false
  verbose : Bool := false
  traceOnly : Bool := false
  gridOnly : Bool := false

inductive UsageError where
  | missingValue (s : Setting)
  | needlessValue (s : Setting) (value : String)
  | notInteger (s : Setting) (value : String)
  | notDecimal (s : Setting) (value : String)
  | ambiguous (a : Ambiguity)
  | leftOver (words : List String)
  deriving DecidableEq, Repr

def UsageError.message : UsageError → String
  | missingValue s => s!"argument {s.label}: expected one argument"
  | needlessValue s v => s!"argument {s.label}: ignored explicit argument {Text.quoted v}"
  | notInteger s v => s!"argument {s.label}: invalid int value: {Text.quoted v}"
  | notDecimal s v => s!"argument {s.label}: invalid float value: {Text.quoted v}"
  | ambiguous a => s!"ambiguous option: {a.text} could match " ++ ", ".intercalate a.names
  | leftOver words => "unrecognized arguments: " ++ " ".intercalate words

/-- The error as the program reports it. -/
def UsageError.line (e : UsageError) : String := "botcommander: error: " ++ e.message

/-- Why there are no options to run with. -/
inductive Refusal where
  /-- The command line asks for help. -/
  | help
  | usage (e : UsageError)
  deriving DecidableEq, Repr

/-- The value that a text spells, unless it stands for none. -/
def readValue {α : Type} (read? : String → Option α) (fault : UsageError) (value : String) :
    Except Refusal (Option α) :=
  if value = "--" then .ok none
  else match read? value with
    | some a => .ok (some a)
    | none => .error (.usage fault)

/-- Applies a setting, with its value where it takes one. -/
def Options.set (o : Options) (s : Setting) (value : String) : Except Refusal Options :=
  match s with
  | .help => .error .help
  | .level => return { o with level := ← readValue integer? (.notInteger s value) value }
  | .levelFile => .ok { o with levelFile := if value = "--" then none else some value }
  | .delay => return { o with delay := ← readValue double? (.notDecimal s value) value }
  | .maxSteps => return { o with maxSteps := ← readValue integer? (.notInteger s value) value }
  | .strict => .ok { o with strict := true }
  | .verbose => .ok { o with verbose := true }
  | .traceOnly => .ok { o with traceOnly := true }
  | .gridOnly => .ok { o with gridOnly := true }

/-- What a single word asks for: settings that are complete, and a last one that wants the next word
as its value. -/
structure Request where
  complete : List (Setting × String) := []
  pending : Option Setting := none

namespace Request

def andBefore (s : Setting) (r : Request) : Request := { r with complete := (s, "") :: r.complete }

/-- A setting without an attached value. -/
def alone (s : Setting) : Request :=
  if s.takesValue then { pending := some s } else { complete := [(s, "")] }

/-- A setting with a value attached. Behind a switch of one letter the value is a sequence of
further letters, of which the last may have a value of its own. -/
def attached (s : Setting) (short : Bool) : List Char → Except UsageError Request
  | [] =>
    if s.takesValue then .ok { complete := [(s, "")] } else .error (.needlessValue s "")
  | c :: rest =>
    if s.takesValue then .ok { complete := [(s, String.ofList (c :: rest))] }
    else match if short then Setting.ofName? (String.ofList ['-', c]) else none with
      | none => .error (.needlessValue s (String.ofList (c :: rest)))
      | some t =>
        if rest.isEmpty then .ok ((alone t).andBefore s)
        else (attached t true rest).map (andBefore s)

def ofSetting (s : Setting) (short : Bool) : Option (List Char) → Except UsageError Request
  | none => .ok (alone s)
  | some value => attached s short value

end Request

/-- Applies settings one after the other. -/
def Options.setAll (o : Options) (settings : List (Setting × String)) : Except Refusal Options :=
  settings.foldlM (fun o (s, value) => o.set s value) o

/-- Goes through the words of a command line, with the words left over so far, the last one first. A
separator is dropped in front of the program file and right behind it. -/
def scan (o : Options) (others : List String) : List Word → Except Refusal (Options × List String)
  | [] => .ok (o, others.reverse)
  | .plain text :: .separator :: rest =>
    if o.file.isNone then scan { o with file := some text } others rest
    else scan o ("--" :: text :: others) rest
  | .plain text :: rest =>
    if o.file.isNone then scan { o with file := some text } others rest
    else scan o (text :: others) rest
  | .separator :: rest => scan o (if o.file.isNone then others else "--" :: others) rest
  | .unknown text :: rest => scan o (text :: others) rest
  | .setting s short value :: rest =>
    match Request.ofSetting s short value with
    | .error e => .error (.usage e)
    | .ok r =>
      match r.pending, rest with
      | none, rest =>
        match o.setAll r.complete with
        | .error e => .error e
        | .ok o => scan o others rest
      | some t, .plain text :: rest =>
        match o.setAll (r.complete ++ [(t, text)]) with
        | .error e => .error e
        | .ok o => scan o others rest
      | some t, _ => .error (.usage (.missingValue t))

/-- The options of a command line. -/
def Options.parse (arguments : List String) : Except Refusal Options :=
  match words arguments with
  | .error a => .error (.usage (.ambiguous a))
  | .ok ws =>
    match scan {} [] ws with
    | .error e => .error e
    | .ok (o, []) => .ok o
    | .ok (_, others) => .error (.usage (.leftOver others))

end GridRobot.CommandLine
