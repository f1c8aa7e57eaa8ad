import GridRobot.Trace.Basic

/-!
# Other instructions in a program

Each instruction of a program can be exchanged for a list of instructions, at every depth, with the
loops left as they are. In the trace every instruction is then exchanged where it stands, however
often its loops run it.
-/

namespace GridRobot

namespace Block

mutual

/-- A block with the instructions of `f i` in the place of each `i`. -/
def substitute (f : Instruction → List Instruction) : Block → List Block
  | basic i => (f i).map basic
  | loop n body => [loop n (substituteAll f body)]

def substituteAll (f : Instruction → List Instruction) : List Block → List Block
  | [] => []
  | b :: bs => substitute f b ++ substituteAll f bs

end

variable {f : Instruction → List Instruction}

theorem expandAll_map_basic (t : List Instruction) : expandAll (t.map basic) = t := by
  induction t with
  | nil => rfl
  | cons i t ih => simp [expandAll, expand, ih]

mutual

theorem expandAll_substitute (f : Instruction → List Instruction) :
    ∀ b : Block, expandAll (substitute f b) = (expand b).flatMap f
  | basic i => by simp [substitute, expand, expandAll_map_basic]
  | loop n body => by
    simp [substitute, expandAll, expand, expandAll_substituteAll f body, List.flatMap_def,
      List.map_flatten, List.flatten_flatten]

theorem expandAll_substituteAll (f : Instruction → List Instruction) :
    ∀ bs : List Block, expandAll (substituteAll f bs) = (expandAll bs).flatMap f
  | [] => rfl
  | b :: bs => by
    simp [substituteAll, expandAll_append, expandAll, expandAll_substitute f b,
      expandAll_substituteAll f bs]

end

mutual

theorem substitute_singleton : ∀ b : Block, substitute (fun i => [i]) b = [b]
  | basic _ => rfl
  | loop n body => by simp only [substitute, substituteAll_singleton body]

theorem substituteAll_singleton : ∀ bs : List Block, substituteAll (fun i => [i]) bs = bs
  | [] => rfl
  | b :: bs => by
    simp only [substituteAll, substitute_singleton b, substituteAll_singleton bs,
      List.singleton_append]

end

end Block

/-- The program with the instructions of `f i` in the place of each `i`, at every depth. -/
def Program.substitute (p : Program) (f : Instruction → List Instruction) : Program :=
  Block.substituteAll f p

theorem Program.compile_substitute (p : Program) (f : Instruction → List Instruction) :
    (p.substitute f).compile.toList = p.compile.toList.flatMap f := by
  rw [compile_toList, compile_toList, substitute, Block.expandAll_substituteAll]

/-- The program with each instruction exchanged for another one, at every depth. -/
def Program.mapInstructions (p : Program) (g : Instruction → Instruction) : Program :=
  p.substitute fun i => [g i]

namespace Program

theorem compile_mapInstructions (p : Program) (g : Instruction → Instruction) :
    (p.mapInstructions g).compile.toList = p.compile.toList.map g := by
  rw [mapInstructions, compile_substitute, List.map_eq_flatMap]

theorem size_compile_mapInstructions (p : Program) (g : Instruction → Instruction) :
    (p.mapInstructions g).compile.size = p.compile.size := by
  rw [← Array.length_toList, compile_mapInstructions, List.length_map, Array.length_toList]

theorem mapInstructions_id (p : Program) : p.mapInstructions id = p :=
  Block.substituteAll_singleton p

theorem mapInstructions_cons (b : Block) (p : Program) (g : Instruction → Instruction) :
    ∃ b' : Block, mapInstructions (b :: p) g = b' :: p.mapInstructions g := by
  cases b with
  | basic i => exact ⟨_, rfl⟩
  | loop n body => exact ⟨_, rfl⟩

theorem length_mapInstructions (p : Program) (g : Instruction → Instruction) :
    (p.mapInstructions g).length = p.length := by
  induction p with
  | nil => rfl
  | cons b p ih =>
    obtain ⟨b', hb⟩ := mapInstructions_cons b p g
    rw [hb, List.length_cons, List.length_cons, ih]

end Program

end GridRobot
