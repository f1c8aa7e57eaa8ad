import GridRobot.Block.Source
import GridRobot.Text.Column
import GridRobot.Trace.Basic

/-!
# Listings and tallies of a trace
-/

namespace GridRobot

/-- One line for each instruction of the trace: its number, aligned to three places, and its name.
-/
def Program.listing (p : Program) : String :=
  Text.joinLines <| p.compile.toList.zipIdx.map fun (i, n) =>
    "  " ++ Text.padLeft 3 (toString n) ++ "  " ++ i.text

/-- Adds one to the count of an instruction; an instruction that has none yet goes to the end. -/
def Tally.bump (i : Instruction) : List (Instruction × Nat) → List (Instruction × Nat)
  | [] => [(i, 1)]
  | (j, n) :: rest => if i = j then (j, n + 1) :: rest else (j, n) :: bump i rest

/-- How often each instruction occurs, in the order of first appearance. -/
def tally (trace : List Instruction) : List (Instruction × Nat) :=
  trace.foldl (fun counts i => Tally.bump i counts) []

namespace Program

/-- The trace of the program that a source spells. -/
def compileSource (source : String) : Except Rejection (Array Instruction) :=
  (parse source).map compile

/-- How often each instruction occurs in the trace of a source. -/
def tallySource (source : String) : Except Rejection (List (Instruction × Nat)) :=
  (compileSource source).map fun trace => tally trace.toList

end Program

end GridRobot
