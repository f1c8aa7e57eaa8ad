import GridRobot.Level.Basic

/-!
# Ratings and the palette's rules

A run is rated by its number of top-level blocks. A level may bound that number and offer only some
types of block, at any depth. To find one that is not offered, a walk goes through all blocks and
keeps those still to be visited on a stack; `visitAll_toList` says that it visits them in preorder.
-/

namespace GridRobot

inductive Rating where
  | perfect
  | complete
  | failed
  deriving DecidableEq, Repr

namespace Rating

def all : List Rating := [perfect, complete, failed]

def name : Rating → String
  | perfect => "perfect"
  | complete => "complete"
  | failed => "failed"

def ofName? (s : String) : Option Rating := all.find? fun r => r.name = s

end Rating

/-- A win is perfect within the level's optimal number of blocks. -/
def Program.rating (p : Program) (l : Level) (won : Bool) : Rating :=
  if !won then .failed
  else if p.blockCount ≤ l.optimalBlocks then .perfect
  else .complete

/-- Only a win is rated higher than as a failure. -/
theorem Program.rating_ne_failed_iff (program : Program) (l : Level) (won : Bool) :
    program.rating l won ≠ .failed ↔ won = true := by
  unfold rating
  cases won with
  | false => simp
  | true => simp only [Bool.not_true, Bool.false_eq_true, ↓reduceIte]; split <;> simp

/-- What breaks the rules of a palette. -/
inductive Violation where
  | tooLong (blocks : Nat) (allowed : Int)
  | unavailable (type : BlockType) (level : String)
  deriving DecidableEq, Repr

def Violation.message : Violation → String
  | tooLong n m => s!"Program uses {n} blocks but the level allows {m}"
  | unavailable t level => s!"Block {t.name} is not available in level '{level}'"

namespace Block

mutual

/-- A block and all blocks inside it, each before its body and its body before its successors. -/
def preorder : Block → List Block
  | basic i => [basic i]
  | loop n body => loop n body :: preorderAll body

def preorderAll : List Block → List Block
  | [] => []
  | b :: bs => preorder b ++ preorderAll bs

end

mutual

/-- The number of blocks at any depth. -/
def weight : Block → Nat
  | basic _ => 1
  | loop _ body => weightAll body + 1

def weightAll : List Block → Nat
  | [] => 0
  | b :: bs => weight b + weightAll bs

end

theorem weightAll_append (as bs : List Block) :
    weightAll (as ++ bs) = weightAll as + weightAll bs := by
  induction as with
  | nil => simp [weightAll]
  | cons a as ih => simp [weightAll, ih]; omega

theorem weight_eq (b : Block) : b.weight = weightAll b.body + 1 := by
  cases b <;> simp [weight, body, weightAll]

theorem weightAll_reverse (bs : List Block) : weightAll bs.reverse = weightAll bs := by
  induction bs with
  | nil => rfl
  | cons b bs ih => simp [weightAll_append, weightAll, ih]; omega

/-- One pass of a walk: the last of the pending blocks is visited, and what is inside it is put
behind the others in reverse, so that its first block comes next. -/
def visit? (pending : Array Block) : Option (Block × Array Block) :=
  pending.back?.map fun b => (b, pending.pop ++ b.body.reverse)

theorem visit?_eq_none_iff {pending : Array Block} : visit? pending = none ↔ pending = #[] := by
  simp [visit?]

theorem visit?_eq_some_iff {pending next : Array Block} {b : Block} :
    visit? pending = some (b, next) ↔
      ∃ others : Array Block, pending = others.push b ∧ next = others ++ b.body.reverse := by
  simp only [visit?, Option.map_eq_some_iff, Array.back?_eq_some_iff, Prod.mk.injEq]
  constructor
  · rintro ⟨c, ⟨others, rfl⟩, rfl, rfl⟩
    exact ⟨others, rfl, by rw [Array.pop_push]⟩
  · rintro ⟨others, rfl, rfl⟩
    exact ⟨b, ⟨others, rfl⟩, rfl, by rw [Array.pop_push]⟩

theorem weightAll_visit?_lt {pending next : Array Block} {b : Block}
    (h : visit? pending = some (b, next)) : weightAll next.toList < weightAll pending.toList := by
  obtain ⟨others, rfl, rfl⟩ := visit?_eq_some_iff.mp h
  simp only [Array.toList_appendList, Array.toList_push, weightAll_append, weightAll_reverse,
    weightAll, weight_eq b]
  omega

/-- Walks on until no block is pending, and puts each block visited behind those seen before. -/
def visitAll (pending seen : Array Block) : Array Block :=
  match _h : visit? pending with
  | none => seen
  | some (b, next) => visitAll next (seen.push b)
termination_by weightAll pending.toList
decreasing_by exact weightAll_visit?_lt _h

theorem preorderAll_append (as bs : List Block) :
    preorderAll (as ++ bs) = preorderAll as ++ preorderAll bs := by
  induction as with
  | nil => rfl
  | cons a as ih => simp [preorderAll, ih]

theorem preorder_eq (b : Block) : b.preorder = b :: preorderAll b.body := by
  cases b <;> simp [preorder, body, preorderAll]

/-- The blocks that are still to come in a walk, in the order in which it visits them. -/
def ahead (pending : Array Block) : List Block := preorderAll pending.toList.reverse

/-- A pass visits the first of the blocks that are still to come, and leaves the others. -/
theorem ahead_visit? {pending next : Array Block} {b : Block}
    (h : visit? pending = some (b, next)) : ahead pending = b :: ahead next := by
  obtain ⟨others, rfl, rfl⟩ := visit?_eq_some_iff.mp h
  simp [ahead, preorderAll, preorderAll_append, preorder_eq b]

/-- A walk visits all that is still to come. -/
theorem visitAll_toList (pending seen : Array Block) :
    (visitAll pending seen).toList = seen.toList ++ ahead pending := by
  fun_induction visitAll pending seen with
  | case1 pending seen h =>
    obtain rfl := visit?_eq_none_iff.mp h
    simp [ahead, preorderAll]
  | case2 pending seen b next h ih => simp [ih, ahead_visit? h]

end Block

/-- All blocks of a program at any depth, as a walk visits them that starts with the first. -/
def Program.visited (p : Program) : Array Block := Block.visitAll p.reverse.toArray #[]

theorem Program.visited_toList (p : Program) : p.visited.toList = Block.preorderAll p := by
  simp [Program.visited, Block.visitAll_toList, Block.ahead]

/-- The first block on the walk that is of a type not offered by the level. -/
def Program.missing? (p : Program) (l : Level) : Option Block :=
  p.visited.find? fun b => b.type ∉ l.palette

/-- The rules of the level's palette: first the number of blocks, then the first block of a type
that is not offered. -/
def Program.checkPalette (p : Program) (l : Level) : Except Violation Unit :=
  match l.maxBlocks with
  | some m => if m < p.blockCount then .error (.tooLong p.blockCount m) else types
  | none => types
where
  types :=
    match p.missing? l with
    | some b => .error (.unavailable b.type l.name)
    | none => .ok ()

end GridRobot
