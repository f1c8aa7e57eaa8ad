import GridRobot.CommandLine.Session

/-!
# The command line program

The outer layer: it reads the files that the options name, and carries out the effects of the
session.
-/

namespace GridRobot.CommandLine

def usage : String :=
  let options := Setting.all.map fun s => "[" ++ s.label ++ "]"
  "usage: botcommander " ++ " ".intercalate options ++ " [file]"

/-- The number of an error, which the system may give as a negative one. -/
def errorNumber (code : UInt32) : Nat := min code.toNat (Nat.pow 2 32 - code.toNat)

def FileFault.ofError : IO.Error → FileFault
  | .noFileOrDirectory .. => .notFound
  | .inappropriateType _ code details | .illegalOperation code details | .otherError code details
  | .permissionDenied _ code details =>
    match errorNumber code with
    | 20 => .notDirectory
    | 21 => .isDirectory
    | 36 => .nameTooLong
    | n => .other n details
  | e => .other 5 e.toString

/-- Reads the named files ahead of the session. -/
def readAhead (names : List String) : IO Reader := do
  let contents ← names.mapM fun name => do
    let path := FilePath.ofText name
    try return (path, Except.ok (← IO.FS.readBinFile path.text))
    catch e => return (path, Except.error (FileFault.ofError e))
  return fun path => (contents.lookup path).getD (.error .notFound)

def Effect.perform : Effect → IO Unit
  | .print text => do
    let out ← IO.getStdout
    out.putStr text
    out.flush
  | .complain text => IO.eprint text
  | .event e shown => do if shown then IO.eprintln e.line
  | .pause nanoseconds => IO.sleep (nanoseconds / Nat.pow 10 6).toUInt32

end GridRobot.CommandLine

open GridRobot.CommandLine in
def main (arguments : List String) : IO UInt32 := do
  match Options.parse arguments with
  | .error .help =>
    IO.println usage
    return 0
  | .error (.usage e) =>
    IO.eprintln usage
    IO.eprintln e.line
    return 2
  | .ok o =>
    let read ← readAhead ([o.levelFile, o.file].filterMap Options.given)
    let session := o.run read false
    session.effects.forM Effect.perform
    match session.ending with
    | .exit status => return status.toUInt32
    | .abort a =>
      IO.eprintln ("error: " ++ a.description)
      return 1
