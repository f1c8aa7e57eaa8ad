/-!
# Blocks

A program is a list of blocks: the four basic instructions, and loops that run a list of blocks a
number of times. Loops nest to any depth, may be empty and may run zero times; a count never
exceeds ten.
-/

namespace GridRobot

/-- What the robot does in one step. -/
inductive Instruction where
  | move
  | moveBack
  | turnLeft
  | turnRight
  deriving DecidableEq, Repr

namespace Instruction

def all : List Instruction := [move, moveBack, turnLeft, turnRight]

/-- The name in sources. -/
def name : Instruction → String
  | move => "MOVE"
  | moveBack => "MOVE_BACK"
  | turnLeft => "TURN_LEFT"
  | turnRight => "TURN_RIGHT"

/-- The name in listings and messages. -/
def text : Instruction → String
  | move => "move"
  | moveBack => "move_back"
  | turnLeft => "turn_left"
  | turnRight => "turn_right"

theorem mem_all (i : Instruction) : i ∈ all := by cases i <;> decide

theorem text_inj {i j : Instruction} : i.text = j.text ↔ i = j := by
  cases i <;> cases j <;> decide

end Instruction

/-- The kinds of block that a palette can offer. -/
inductive BlockType where
  | basic (i : Instruction)
  | loop
  deriving DecidableEq, Repr

namespace BlockType

/-- All types, in the order in which a full palette shows them. -/
def all : List BlockType := Instruction.all.map basic ++ [loop]

def name : BlockType → String
  | basic i => i.name
  | loop => "REPEAT"

def ofName? (s : String) : Option BlockType := all.find? fun t => t.name = s

@[simp] theorem ofName?_name (t : BlockType) : ofName? t.name = some t := by
  cases t with
  | basic i => cases i <;> decide
  | loop => decide

end BlockType

/-- A block of a program: one instruction, or a list of blocks that runs `count` times in a row. -/
inductive Block where
  | basic (i : Instruction)
  | loop (count : Fin 11) (body : List Block)

abbrev Program := List Block

namespace Block

def type : Block → BlockType
  | basic i => .basic i
  | loop _ _ => .loop

/-- The blocks right inside a block. -/
def body : Block → List Block
  | basic _ => []
  | loop _ body => body

/-- To prove something of all blocks, prove it of instructions and of loops over such blocks. -/
theorem induct {P : Block → Prop} (basic : ∀ i, P (basic i))
    (loop : ∀ n body, (∀ b ∈ body, P b) → P (loop n body)) : ∀ b, P b
  | .basic i => basic i
  | .loop n body => loop n body (all body)
where
  all : ∀ bs : List Block, ∀ b ∈ bs, P b
    | [], _, h => nomatch h
    | a :: bs, b, h =>
      (List.mem_cons.1 h).elim (fun e => e ▸ induct basic loop a) (fun h => all bs b h)

mutual

/-- Whether two blocks are the same, by recursion on both. -/
def same : Block → Block → Bool
  | basic i, basic j => i == j
  | loop m as, loop n bs => m == n && sameAll as bs
  | _, _ => false

def sameAll : List Block → List Block → Bool
  | [], [] => true
  | a :: as, b :: bs => same a b && sameAll as bs
  | _, _ => false

end

mutual

theorem same_iff : ∀ a b : Block, same a b = true ↔ a = b
  | basic i, basic j => by simp [same]
  | loop m as, loop n bs => by simp [same, sameAll_iff as bs]
  | basic _, loop _ _ => by simp [same]
  | loop _ _, basic _ => by simp [same]

theorem sameAll_iff : ∀ as bs : List Block, sameAll as bs = true ↔ as = bs
  | [], [] => by simp [sameAll]
  | a :: as, b :: bs => by simp [sameAll, same_iff a b, sameAll_iff as bs]
  | [], _ :: _ => by simp [sameAll]
  | _ :: _, [] => by simp [sameAll]

end

instance : DecidableEq Block := fun a b => decidable_of_iff _ (same_iff a b)

end Block

/-- The number of top-level blocks: a loop counts once, however large its body. -/
def Program.blockCount (p : Program) : Nat := p.length

/-- The count of a loop that names none. -/
def Block.defaultCount : Fin 11 := ⟨2, by decide⟩

namespace Palette

/-- The nearest count that the palette's editor offers. -/
def clampCount (n : Int) : Int := max 2 (min 10 n)

theorem clampCount_range (n : Int) : 2 ≤ clampCount n ∧ clampCount n ≤ 10 := by
  simp only [clampCount]; omega

/-- A type whose blocks need more than the type. -/
structure NotPlain where
  type : BlockType
  deriving DecidableEq, Repr

def NotPlain.message (e : NotPlain) : String :=
  s!"BlockType.{e.type.name} carries a payload; build it directly"

/-- The instruction that the palette creates for a type. -/
def instruction : BlockType → Except NotPlain Instruction
  | .basic i => .ok i
  | .loop => .error ⟨.loop⟩

/-- The loop that the palette creates: one instruction, and a count from the editor. -/
def loop (i : Instruction) (count : Int) : Block :=
  .loop ⟨(clampCount count).toNat, by have := clampCount_range count; omega⟩ [.basic i]

end Palette

end GridRobot
