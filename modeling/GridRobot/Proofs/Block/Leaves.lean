import Mathlib.Algebra.BigOperators.Ring.List
import Mathlib.Algebra.Ring.Nat
import GridRobot.Proofs.Trace.Firsts
import GridRobot.Score
import GridRobot.Trace.Basic

/-!
# The leaves of a program

A leaf is an instruction where it stands in a program, with the counts of the loops around it. In
the trace a leaf comes as often as these counts say when they are multiplied, so a leaf is live if
none of them is zero. What a trace contains, how often, and what comes first in it can be told from
the leaves.
-/

namespace GridRobot

structure Leaf where
  instruction : Instruction
  /-- The counts of the loops around it, the outermost first. -/
  counts : List Nat
  deriving DecidableEq, Repr

namespace Leaf

/-- A leaf of the body of a loop, as a leaf of the loop. -/
def within (n : Nat) (x : Leaf) : Leaf := { x with counts := n :: x.counts }

/-- How often the leaf comes in the trace. -/
def runs (x : Leaf) : Nat := x.counts.prod

/-- No loop around the leaf runs zero times. -/
def Live (x : Leaf) : Prop := 0 ∉ x.counts

instance : DecidablePred Live := fun x => inferInstanceAs (Decidable (0 ∉ x.counts))

@[simp] theorem instruction_within (n : Nat) (x : Leaf) :
    (x.within n).instruction = x.instruction := rfl

@[simp] theorem runs_within (n : Nat) (x : Leaf) : (x.within n).runs = n * x.runs :=
  List.prod_cons

@[simp] theorem live_within_iff (n : Nat) (x : Leaf) : (x.within n).Live ↔ n ≠ 0 ∧ x.Live := by
  simp [Live, within, eq_comm]

end Leaf

namespace Block

mutual

/-- The leaves of a block, in the order in which they stand there. -/
def leaves : Block → List Leaf
  | basic i => [⟨i, []⟩]
  | loop n body => (leavesAll body).map (Leaf.within n.val)

def leavesAll : List Block → List Leaf
  | [] => []
  | b :: bs => leaves b ++ leavesAll bs

end

/-- How often an instruction comes at some leaves, all taken together. -/
def occurrences (i : Instruction) (xs : List Leaf) : Nat :=
  ((xs.filter fun x => x.instruction = i).map Leaf.runs).sum

theorem occurrences_append (i : Instruction) (xs ys : List Leaf) :
    occurrences i (xs ++ ys) = occurrences i xs + occurrences i ys := by
  simp [occurrences]

/-- Inside a loop everything comes as often as the loop says. -/
theorem occurrences_within (i : Instruction) (n : Nat) (xs : List Leaf) :
    occurrences i (xs.map (Leaf.within n)) = n * occurrences i xs := by
  have hruns : Leaf.runs ∘ Leaf.within n = fun x => n * x.runs := funext (Leaf.runs_within n)
  rw [occurrences, occurrences, ← List.sum_map_mul_left, List.filter_map, List.map_map, hruns]
  rfl

mutual

theorem count_expand (i : Instruction) :
    ∀ b : Block, (expand b).count i = occurrences i (leaves b)
  | basic j => by
    by_cases h : j = i <;> simp [expand, leaves, occurrences, Leaf.runs, h]
  | loop n body => by
    rw [expand, leaves, occurrences_within, List.count_flatten, List.map_replicate,
      List.sum_replicate_nat, count_expandAll i body]

theorem count_expandAll (i : Instruction) :
    ∀ bs : List Block, (expandAll bs).count i = occurrences i (leavesAll bs)
  | [] => rfl
  | b :: bs => by
    rw [expandAll, leavesAll, List.count_append, occurrences_append, count_expand i b,
      count_expandAll i bs]

end

/-- The instructions of the leaves that are live. -/
def liveInstructions (xs : List Leaf) : List Instruction :=
  (xs.filter fun x => x.Live).map Leaf.instruction

theorem liveInstructions_append (xs ys : List Leaf) :
    liveInstructions (xs ++ ys) = liveInstructions xs ++ liveInstructions ys := by
  simp [liveInstructions]

theorem liveInstructions_within (n : Nat) (xs : List Leaf) :
    liveInstructions (xs.map (Leaf.within n)) = if n = 0 then [] else liveInstructions xs := by
  by_cases h : n = 0 <;> simp [liveInstructions, List.filter_map, Function.comp_def, h]

mutual

theorem eraseDups_expand :
    ∀ b : Block, (expand b).eraseDups = (liveInstructions (leaves b)).eraseDups
  | basic i => by simp [expand, leaves, liveInstructions, Leaf.Live]
  | loop n body => by
    rw [expand, leaves, liveInstructions_within, Firsts.eraseDups_copies, eraseDups_expandAll body]
    split <;> rfl

/-- In a trace instructions appear first in the order in which live leaves have them first. -/
theorem eraseDups_expandAll :
    ∀ bs : List Block, (expandAll bs).eraseDups = (liveInstructions (leavesAll bs)).eraseDups
  | [] => rfl
  | b :: bs => by
    rw [expandAll, leavesAll, liveInstructions_append]
    exact Firsts.eraseDups_append_congr (eraseDups_expand b) (eraseDups_expandAll bs)

end

/-- The instructions of a trace are those of the live leaves. -/
theorem mem_expandAll_iff {i : Instruction} {bs : List Block} :
    i ∈ expandAll bs ↔ ∃ x ∈ leavesAll bs, x.Live ∧ x.instruction = i := by
  rw [← List.mem_eraseDups, eraseDups_expandAll, List.mem_eraseDups]
  simp [liveInstructions, and_assoc]

mutual

theorem basic_mem_preorder_iff {i : Instruction} :
    ∀ b : Block, basic i ∈ preorder b ↔ ∃ x ∈ leaves b, x.instruction = i
  | basic j => by simp [preorder, leaves, eq_comm]
  | loop n body => by simp [preorder, leaves, basic_mem_preorderAll_iff body]

/-- The leaves are the blocks at any depth that are no loops. -/
theorem basic_mem_preorderAll_iff {i : Instruction} :
    ∀ bs : List Block, basic i ∈ preorderAll bs ↔ ∃ x ∈ leavesAll bs, x.instruction = i
  | [] => by simp [preorderAll, leavesAll]
  | b :: bs => by
    simp [preorderAll, leavesAll, basic_mem_preorder_iff b, basic_mem_preorderAll_iff bs,
      or_and_right, exists_or]

end

mutual

theorem exists_loop_of_leaf {x : Leaf} {n : Nat} (hn : n ∈ x.counts) :
    ∀ b : Block, x ∈ leaves b → ∃ m body, loop m body ∈ preorder b ∧ m.val = n
  | basic i, hx => by
    simp only [leaves, List.mem_singleton] at hx
    simp [hx] at hn
  | loop m body, hx => by
    obtain ⟨y, hy, rfl⟩ := List.mem_map.mp hx
    rcases List.mem_cons.mp hn with rfl | hn
    · exact ⟨m, body, List.mem_cons_self, rfl⟩
    · obtain ⟨m', body', hmem, hval⟩ := exists_loop_of_leafAll hn body hy
      exact ⟨m', body', List.mem_cons_of_mem _ hmem, hval⟩

/-- What stands at a leaf as a count is the count of a loop of the program. -/
theorem exists_loop_of_leafAll {x : Leaf} {n : Nat} (hn : n ∈ x.counts) :
    ∀ bs : List Block, x ∈ leavesAll bs → ∃ m body, loop m body ∈ preorderAll bs ∧ m.val = n
  | [], hx => by simp [leavesAll] at hx
  | b :: bs, hx => by
    rcases List.mem_append.mp hx with hx | hx
    · obtain ⟨m, body, hmem, hval⟩ := exists_loop_of_leaf hn b hx
      exact ⟨m, body, List.mem_append_left _ hmem, hval⟩
    · obtain ⟨m, body, hmem, hval⟩ := exists_loop_of_leafAll hn bs hx
      exact ⟨m, body, List.mem_append_right _ hmem, hval⟩

end

end Block

end GridRobot
