import GridRobot.CommandLine.Numeral

/-!
# Words of a command line

A word is plain, or names a setting in full or by its first letters, perhaps with a value attached.
First letters that several names share are refused before anything else. All words after the
separator `--` are plain.
-/

namespace GridRobot.CommandLine

/-- What can be set by an option. -/
inductive Setting where
  | help
  | level
  | levelFile
  | delay
  | maxSteps
  | strict
  | verbose
  | traceOnly
  | gridOnly
  deriving DecidableEq, Repr

namespace Setting

def all : List Setting :=
  [help, level, levelFile, delay, maxSteps, strict, verbose, traceOnly, gridOnly]

def names : Setting → List String
  | help => ["-h", "--help"]
  | level => ["--level", "-l"]
  | levelFile => ["--level-file"]
  | delay => ["--delay"]
  | maxSteps => ["--max-steps", "-n"]
  | strict => ["--strict"]
  | verbose => ["--verbose", "-v"]
  | traceOnly => ["--trace-only"]
  | gridOnly => ["--grid-only"]

/-- The setting in a message. -/
def label (s : Setting) : String := "/".intercalate s.names

def takesValue : Setting → Bool
  | level | levelFile | delay | maxSteps => true
  | _ => false

/-- All names, each with its setting. -/
def spellings : List (String × Setting) := all.flatMap fun s => s.names.map fun name => (name, s)

def ofName? (name : String) : Option Setting := spellings.lookup name

end Setting

inductive Word where
  | plain (text : String)
  | separator
  /-- A setting, by a name of one letter or a long one, with the rest of the word if there is one:
  what stands behind an equals sign or right behind the letter. -/
  | setting (s : Setting) (short : Bool) (attached : Option (List Char))
  | unknown (text : String)
  deriving DecidableEq, Repr

/-- A word that could name several settings. -/
structure Ambiguity where
  text : String
  names : List String
  deriving DecidableEq, Repr

namespace Word

/-- A word that starts with a hyphen and names no setting. -/
def ofOther (text : String) : Word :=
  if looksNegative text.toList || ' ' ∈ text.toList then plain text else unknown text

/-- A word that starts with two hyphens and names no setting in full. -/
def ofBeginning (text : String) : Except Ambiguity Word :=
  let (name, value) := cut (· = '=') text.toList
  match Setting.spellings.filter fun spelling => name.isPrefixOf spelling.1.toList with
  | [] => .ok (ofOther text)
  | [(_, s)] => .ok (setting s false value)
  | several => .error ⟨text, several.map Prod.fst⟩

/-- A word before the separator. -/
def read (text : String) : Except Ambiguity Word :=
  match text.toList with
  | '-' :: second :: rest =>
    let short := second ≠ '-'
    let (name, value) := cut (· = '=') text.toList
    match Setting.ofName? text, value, Setting.ofName? (String.ofList name) with
    | some s, _, _ => .ok (setting s short none)
    | none, some v, some s => .ok (setting s short (some v))
    | none, _, _ =>
      if !short then ofBeginning text
      else match Setting.ofName? (String.ofList ['-', second]) with
        | some s => .ok (setting s true (some rest))
        | none => .ok (ofOther text)
  | _ => .ok (plain text)

end Word

/-- The words of a command line. -/
def words : List String → Except Ambiguity (List Word)
  | [] => .ok []
  | "--" :: rest => .ok (.separator :: rest.map .plain)
  | text :: rest => return (← Word.read text) :: (← words rest)

end GridRobot.CommandLine
