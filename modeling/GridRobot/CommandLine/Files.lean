/-!
# Files

A path is looked up from the working directory, component by component. The files that the directory
holds are given with their paths and contents.
-/

namespace GridRobot.CommandLine

/-- The reasons why a file cannot be opened. -/
inductive FileFault where
  | notFound
  | notDirectory
  | isDirectory
  | nameTooLong
  /-- Any other reason, by its number and description. -/
  | other (code : Nat) (description : String)
  deriving DecidableEq, Repr

namespace FileFault

def code : FileFault → Nat
  | notFound => 2
  | notDirectory => 20
  | isDirectory => 21
  | nameTooLong => 36
  | other code _ => code

def description : FileFault → String
  | notFound => "No such file or directory"
  | notDirectory => "Not a directory"
  | isDirectory => "Is a directory"
  | nameTooLong => "File name too long"
  | other _ description => description

end FileFault

/-- A path that starts at the working directory, or at the root with that number of slashes. -/
structure FilePath where
  slashes : Nat
  components : List String
  deriving DecidableEq, Repr

namespace FilePath

/-- Empty components and single points do not count. Exactly two slashes in front are kept apart
from one; more are the same as one. -/
def ofText (text : String) : FilePath :=
  let slashes := (text.toList.takeWhile (· = '/')).length
  ⟨if slashes ≤ 2 then slashes else 1,
    (text.splitOn "/").filter fun component => component ≠ "" ∧ component ≠ "."⟩

def text (p : FilePath) : String :=
  let front := String.ofList (List.replicate p.slashes '/')
  let path := front ++ "/".intercalate p.components
  if path = "" then "." else path

end FilePath

/-- What a path leads to. -/
inductive Node where
  | file (content : ByteArray)
  | directory

/-- The most bytes that a component of a path may have. -/
def nameLimit : Nat := 255

/-- The most bytes that a path may have. -/
def pathLimit : Nat := 4095

/-- The files below the working directory. -/
abbrev Files := List (String × ByteArray)

namespace Files

/-- What there is at a sequence of components below the working directory. -/
def node? (files : Files) (components : List String) : Option Node :=
  match files.find? fun f => (FilePath.ofText f.1).components = components with
  | some f => some (.file f.2)
  | none =>
    if components.isEmpty || files.any fun f =>
        components.isPrefixOf (FilePath.ofText f.1).components then
      some .directory
    else none

/-- Follows components from a place, which is given by its own components, or is none of those below
the working directory. Outside, only directories that lead to the root are known. -/
def follow (files : Files) : Option (List String) → List String → Except FileFault ByteArray
  | none, [] => .error .isDirectory
  | none, component :: rest =>
    if component = ".." then follow files none rest
    else .error (if nameLimit < component.utf8ByteSize then .nameTooLong else .notFound)
  | some place, [] =>
    match files.node? place with
    | some (.file content) => .ok content
    | some .directory => .error .isDirectory
    | none => .error .notFound
  | some place, component :: rest =>
    match files.node? place with
    | some (.file _) => .error .notDirectory
    | none => .error .notFound
    | some .directory =>
      if component = ".." then
        follow files (if place.isEmpty then none else some place.dropLast) rest
      else if nameLimit < component.utf8ByteSize then .error .nameTooLong
      else follow files (some (place ++ [component])) rest

/-- The content of a file. -/
def read (files : Files) (p : FilePath) : Except FileFault ByteArray :=
  if pathLimit < p.text.utf8ByteSize then .error .nameTooLong
  else files.follow (if p.slashes = 0 then some [] else none) p.components

end Files

end GridRobot.CommandLine
