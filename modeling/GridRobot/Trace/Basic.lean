import GridRobot.Block.Basic

/-!
# Traces

A program compiles to its trace, the instructions in the order in which they run. `Block.expand`
says what the trace is, by recursion on the blocks; `Program.compile` computes it with the open
lists of blocks kept in a list, so that the depth of a program costs no recursion. `compile_toList`
says that the two agree.
-/

namespace GridRobot

namespace Block

mutual

/-- The instructions of a block, in order: a loop contributes its body `count` times. -/
def expand : Block → List Instruction
  | basic i => [i]
  | loop n body => (List.replicate n.val (expandAll body)).flatten

def expandAll : List Block → List Instruction
  | [] => []
  | b :: bs => expand b ++ expandAll bs

end

mutual

/-- The number of steps that compiling a block takes. -/
def work : Block → Nat
  | basic _ => 1
  | loop _ body => workAll body + 2

def workAll : List Block → Nat
  | [] => 0
  | b :: bs => work b + workAll bs

end

theorem expandAll_append (as bs : List Block) :
    expandAll (as ++ bs) = expandAll as ++ expandAll bs := by
  induction as with
  | nil => rfl
  | cons a as ih => simp [expandAll, ih]

end Block

/-- A list of blocks being compiled: the blocks still to come, the instructions so far, and how
often the enclosing list takes them when the blocks run out. -/
structure Frame where
  rest : List Block
  output : Array Instruction
  count : Nat

namespace Frame

/-- Takes the output of a list that has run out, `n` times over. -/
def absorb (f : Frame) (inner : Array Instruction) : Nat → Frame
  | 0 => f
  | n + 1 => absorb { f with output := f.output ++ inner } inner n

@[simp] theorem rest_absorb (f : Frame) (inner : Array Instruction) (n : Nat) :
    (f.absorb inner n).rest = f.rest := by
  induction n generalizing f with
  | zero => rfl
  | succ n ih => exact ih _

@[simp] theorem count_absorb (f : Frame) (inner : Array Instruction) (n : Nat) :
    (f.absorb inner n).count = f.count := by
  induction n generalizing f with
  | zero => rfl
  | succ n ih => exact ih _

/-- The number of steps that compiling takes in the lists of blocks that enclose one. -/
def pending : List Frame → Nat
  | [] => 0
  | f :: fs => Block.workAll f.rest + 1 + pending fs

/-- Compiles an open list of blocks, innermost first, within those that enclose it. -/
def compile : Frame → List Frame → Array Instruction
  | ⟨[], output, _⟩, [] => output
  | ⟨[], output, count⟩, f :: fs => compile (f.absorb output count) fs
  | ⟨.basic i :: rest, output, count⟩, fs => compile ⟨rest, output.push i, count⟩ fs
  | ⟨.loop inner body :: rest, output, count⟩, fs =>
    compile ⟨body, #[], inner⟩ (⟨rest, output, count⟩ :: fs)
termination_by f fs => Block.workAll f.rest + pending fs
decreasing_by
  · simp only [rest_absorb, Block.workAll, pending]; omega
  · simp only [Block.workAll, Block.work]; omega
  · simp only [Block.workAll, Block.work, pending]; omega

end Frame

/-- The trace of a program. -/
def Program.compile (p : Program) : Array Instruction := Frame.compile ⟨p, #[], 1⟩ []

namespace Frame

theorem output_absorb (f : Frame) (inner : Array Instruction) (n : Nat) :
    (f.absorb inner n).output.toList =
      f.output.toList ++ (List.replicate n inner.toList).flatten := by
  induction n generalizing f with
  | zero => simp [absorb]
  | succ n ih => simp [absorb, ih, List.replicate_succ]

/-- What the enclosing lists make of the instructions of the innermost one. -/
def unwind (own : List Instruction) (count : Nat) : List Frame → List Instruction
  | [] => own
  | f :: fs =>
    unwind (f.output.toList ++ (List.replicate count own).flatten ++ Block.expandAll f.rest)
      f.count fs

theorem compile_toList (f : Frame) (fs : List Frame) :
    (f.compile fs).toList = unwind (f.output.toList ++ Block.expandAll f.rest) f.count fs := by
  fun_induction Frame.compile f fs with
  | case1 => simp [unwind, Block.expandAll]
  | case2 output count f fs ih =>
    rw [ih]; simp [unwind, Block.expandAll, output_absorb]
  | case3 i rest output count fs ih => rw [ih]; simp [Block.expandAll, Block.expand]
  | case4 n body rest output count fs ih =>
    rw [ih]; simp [unwind, Block.expandAll, Block.expand]

end Frame

theorem Program.compile_toList (p : Program) : p.compile.toList = Block.expandAll p := by
  simp [Program.compile, Frame.compile_toList, Frame.unwind]

theorem Program.compile_append (p q : Program) :
    Program.compile (p ++ q) = p.compile ++ q.compile := by
  apply Array.toList_inj.mp
  rw [Array.toList_append, compile_toList, compile_toList, compile_toList, Block.expandAll_append]

end GridRobot
