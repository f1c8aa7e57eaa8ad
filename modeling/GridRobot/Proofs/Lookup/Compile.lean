import GridRobot.Proofs.Lookup.Table
import GridRobot.Trace.Listing

/-!
# Compiling with a stack that can be empty

A program is compiled with the open lists of blocks on a stack, and the result holds whatever blocks
were not taken to be loops. The main statement says that the stack is never looked into when it is
empty, and that the result consists of instructions: it is the trace of the program.
-/

namespace GridRobot.Lookup

/-- A list of blocks that is being compiled: what is still to come of it, what it has given so far,
and how often the list below it takes that. -/
structure OpenList where
  rest : List Block
  output : List Block
  count : Nat

namespace OpenList

/-- Takes what a list that has been closed has given, as often as that list says. -/
def extend (f closed : OpenList) : OpenList :=
  { f with output := f.output ++ (List.replicate closed.count closed.output).flatten }

/-- Goes on with the list on top of the stack: closes it when it is over, and otherwise opens its
next block if that is a loop and puts it out if it is not. What the lowest list has given when it is
closed is the result, which is `done` until then. -/
def advance (stack : List OpenList) (done : List Block) :
    Except Misuse (List OpenList × List Block) := do
  let (f, below) ← top stack
  match f.rest with
  | [] =>
    if below.isEmpty then return (below, f.output)
    let (g, others) ← top below
    return (g.extend f :: others, done)
  | .loop n body :: rest => return (⟨body, [], n⟩ :: { f with rest } :: below, done)
  | b :: rest => return ({ f with rest, output := f.output ++ [b] } :: below, done)

/-- The number of steps that the lists on a stack take until they are closed. -/
def work : List OpenList → Nat
  | [] => 0
  | f :: fs => Block.workAll f.rest + 1 + work fs

theorem work_advance_lt {stack stack' : List OpenList} {done done' : List Block}
    (h : advance stack done = .ok (stack', done')) : work stack' < work stack := by
  cases stack with
  | nil => simp [advance, top, bind, Except.bind] at h
  | cons f below =>
    obtain ⟨rest, output, count⟩ := f
    cases rest with
    | nil =>
      cases below with
      | nil =>
        simp only [advance, top, bind, Except.bind, pure, Except.pure, List.isEmpty_nil,
          ↓reduceIte, Except.ok.injEq, Prod.mk.injEq] at h
        simp [← h.1, work]
      | cons g others =>
        simp only [advance, top, bind, Except.bind, pure, Except.pure, List.isEmpty_cons,
          Bool.false_eq_true, ↓reduceIte, Except.ok.injEq, Prod.mk.injEq] at h
        simp only [← h.1, work, extend]
        omega
    | cons b rest =>
      cases b with
      | basic i =>
        simp only [advance, top, bind, Except.bind, pure, Except.pure, Except.ok.injEq,
          Prod.mk.injEq] at h
        simp only [← h.1, work, Block.workAll, Block.work]
        omega
      | loop n body =>
        simp only [advance, top, bind, Except.bind, pure, Except.pure, Except.ok.injEq,
          Prod.mk.injEq] at h
        simp only [← h.1, work, Block.workAll, Block.work]
        omega

/-- Goes on until the stack is empty. -/
def compile (stack : List OpenList) (done : List Block) : Except Misuse (List Block) :=
  if stack.isEmpty then .ok done
  else match _h : advance stack done with
    | .error u => .error u
    | .ok (stack', done') => compile stack' done'
termination_by work stack
decreasing_by exact work_advance_lt _h

/-- A list of blocks as it is open while a program is compiled. -/
def ofFrame (f : Frame) : OpenList := ⟨f.rest, f.output.toList.map .basic, f.count⟩

theorem ofFrame_absorb (f : Frame) (inner : Array Instruction) (n : Nat) :
    ofFrame (f.absorb inner n) = (ofFrame f).extend ⟨[], inner.toList.map .basic, n⟩ := by
  simp [ofFrame, extend, Frame.output_absorb, List.map_flatten]

theorem compile_of_advance {stack stack' : List OpenList} {done done' : List Block}
    (hne : stack ≠ []) (h : advance stack done = .ok (stack', done')) :
    compile stack done = compile stack' done' := by
  rw [compile, if_neg (by simpa using hne)]
  split <;> simp_all

/-- With the lists that are open on the stack, the result consists of the instructions that
compiling them gives. -/
theorem compile_ofFrame (f : Frame) (fs : List Frame) (done : List Block) :
    compile (ofFrame f :: fs.map ofFrame) done = .ok ((f.compile fs).toList.map .basic) := by
  fun_induction Frame.compile f fs generalizing done with
  | case1 output count =>
    rw [compile_of_advance (List.cons_ne_nil _ _) rfl, compile]
    rfl
  | case2 output count f fs ih =>
    rw [compile_of_advance (List.cons_ne_nil _ _) rfl, ← ih done, ofFrame_absorb]
    rfl
  | case3 i rest output count fs ih =>
    rw [compile_of_advance (List.cons_ne_nil _ _) rfl, ← ih done]
    simp [ofFrame]
  | case4 n body rest output count fs ih =>
    rw [compile_of_advance (List.cons_ne_nil _ _) rfl, ← ih done]
    simp [ofFrame]

end OpenList

/-- The compiled program: the blocks that are left when the loops are opened. -/
def compile (program : Program) : Except Misuse (List Block) :=
  OpenList.compile [⟨program, [], 1⟩] []

/-- Compiling is never at a loss, and leaves no loop. -/
theorem compile_eq (program : Program) :
    compile program = .ok (program.compile.toList.map .basic) :=
  OpenList.compile_ofFrame ⟨program, #[], 1⟩ [] []

/-- One line for each block of the compiled program. -/
def listing (program : Program) : Except Misuse String := do
  let trace ← compile program
  return Text.joinLines <| trace.zipIdx.map fun (b, n) =>
    "  " ++ Text.padLeft 3 (toString n) ++ "  " ++ b.text

theorem text_basic (i : Instruction) : (Block.basic i).text = i.text := by
  cases i <;> decide

theorem listing_eq (program : Program) : listing program = .ok program.listing := by
  rw [listing, compile_eq]
  simp only [bind, Except.bind, pure, Except.pure, Program.listing, List.zipIdx_map, List.map_map]
  refine congrArg (fun lines => Except.ok (Text.joinLines lines)) (List.map_congr_left ?_)
  rintro ⟨i, n⟩ -
  simp only [Function.comp_apply, Prod.map_apply, id_eq, text_basic]

end GridRobot.Lookup
