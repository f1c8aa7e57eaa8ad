import GridRobot.Campaign.Levels
import GridRobot.Proofs.Block.Substitution
import GridRobot.Proofs.Robot.Cleared

/-!
# Three turns to the right

A program can do without turns to the left and without backing up: three turns to the right are one
to the left, and to back up is to turn around, to move, and to turn around again. The robot looks at
its cell after each of these turns, too, but there is nothing left on a cell that it has cleared. If
the move crashes or wins, the turns behind it are not performed, and the robot faces another way.
-/

namespace GridRobot

/-- The same by moves ahead and turns to the right. -/
def Instruction.rightward : Instruction → List Instruction
  | move => [move]
  | moveBack => [turnRight, turnRight, move, turnRight, turnRight]
  | turnLeft => [turnRight, turnRight, turnRight]
  | turnRight => [turnRight]

theorem Direction.turnRight_thrice (d : Direction) :
    d.turnRight.turnRight.turnRight = d.turnLeft := by
  cases d <;> rfl

theorem Instruction.rightward_palette {i j : Instruction} (h : j ∈ i.rightward) :
    j = move ∨ j = turnRight := by
  cases i <;> simp only [rightward, List.mem_cons, List.not_mem_nil] at h <;> grind

namespace Robot

variable {l : Level} {r s u : Robot} {i j : Instruction}

/-- Two robots are alike in all but their logs and where they face. -/
structure Alike (r s : Robot) : Prop where
  position : s.position = r.position
  coins : s.coins = r.coins
  crashed : s.crashed = r.crashed
  won : s.won = r.won

namespace Alike

theorem symm (h : Alike r s) : Alike s r :=
  ⟨h.position.symm, h.coins.symm, h.crashed.symm, h.won.symm⟩

theorem trans (h : Alike r s) (h' : Alike s u) : Alike r u :=
  ⟨h'.position.trans h.position, h'.coins.trans h.coins, h'.crashed.trans h.crashed,
    h'.won.trans h.won⟩

theorem terminal (h : Alike r s) : s.terminal = r.terminal := by
  rw [Robot.terminal, Robot.terminal, h.crashed, h.won]

theorem cleared (h : Alike r s) (hr : r.Cleared l) : s.Cleared l :=
  hr.of_position_eq h.position (by rw [h.coins]; exact List.Subset.refl _)

/-- What a robot finds depends on where it is and on what it has. -/
theorem collect (h : Alike r s) (l : Level) : Alike (r.collect l) (s.collect l) := by
  rw [Robot.collect, Robot.collect, h.position, h.coins]
  split
  · split
    · exact h
    · exact ⟨rfl, rfl, h.crashed, h.won⟩
  · exact h

theorem checkGoal (h : Alike r s) (l : Level) : Alike (r.checkGoal l) (s.checkGoal l) := by
  rw [Robot.checkGoal, Robot.checkGoal, h.position]
  split
  · exact ⟨rfl, h.coins, h.crashed, rfl⟩
  · exact h

/-- A drive depends on its heading and not on where the robot faces. -/
theorem drive (h : Alike r s) (l : Level) (d : Direction) (line line' : Position → LogLine) :
    Alike (r.drive l d line) (s.drive l d line') := by
  rw [Robot.drive, Robot.drive, h.position]
  split
  · exact ⟨rfl, h.coins, rfl, h.won⟩
  · exact ⟨rfl, h.coins, h.crashed, h.won⟩

/-- Robots that are alike after two instructions are alike after they have looked at the cell. -/
theorem step (h : Alike r s) (hr : r.terminal = false)
    (hperform : Alike (r.perform l i) (s.perform l j)) : Alike (step l r i) (step l s j) := by
  have hs : s.terminal = false := h.terminal.trans hr
  by_cases hc : (r.perform l i).crashed = true
  · simpa only [Robot.step, hr, hs, hperform.crashed, hc, Bool.false_eq_true, ↓reduceIte]
      using hperform
  · simpa only [Robot.step, hr, hs, hperform.crashed, hc, Bool.false_eq_true, ↓reduceIte]
      using (hperform.collect l).checkGoal l

end Alike

/-- A robot keeps its facing while it looks at the cell. -/
theorem facing_step (l : Level) (hr : r.terminal = false) (i : Instruction) :
    (step l r i).facing = (r.perform l i).facing := by
  by_cases hc : (r.perform l i).crashed = true
  · simp only [step, hr, hc, Bool.false_eq_true, ↓reduceIte]
  · simp only [step, hr, hc, Bool.false_eq_true, ↓reduceIte, checkGoal_facing, collect_facing]

theorem facing_drive (r : Robot) (l : Level) (d : Direction) (line : Position → LogLine) :
    (r.drive l d line).facing = r.facing := by
  rcases drive_cases r l d line with ⟨o, -, he⟩ | ⟨-, he⟩ <;> rw [he] <;> rfl

/-- A turn on a cell that is cleared changes nothing but the facing. -/
theorem alike_turnRight (n : Nat) (hr : r.terminal = false) (h : r.Cleared l) :
    Alike r (run l r (List.replicate n .turnRight)) ∧
      (run l r (List.replicate n .turnRight)).facing = Direction.turnRight^[n] r.facing := by
  rw [run_turnRight n hr h]
  exact ⟨⟨rfl, rfl, rfl, rfl⟩, rfl⟩

/-- The robot `s` goes along with `r`: as long as they run they face the same way, too, and the cell
that they are on is cleared. -/
structure Follows (l : Level) (r s : Robot) : Prop where
  alike : Alike r s
  facing : r.terminal = false → s.facing = r.facing
  cleared : r.terminal = false → r.Cleared l

/-- An instruction that only turns the robot is as good as right turns that add up to it. -/
theorem alike_turn (h : Alike r s) (n : Nat) {next : Robot} (hfacing : s.facing = r.facing)
    (hr : r.terminal = false) (hcleared : r.Cleared l) (hland : Lands l r i next)
    (hnext : Alike r next) (hturns : next.facing = Direction.turnRight^[n] r.facing) :
    Alike (step l r i) (run l s (List.replicate n .turnRight)) ∧
      ((step l r i).terminal = false →
        (run l s (List.replicate n .turnRight)).facing = (step l r i).facing) := by
  obtain ⟨hturned, hfacing'⟩ := alike_turnRight n (h.terminal.trans hr) (h.cleared hcleared)
  rw [hland.step_eq_of_cleared hr (hnext.cleared hcleared)]
  refine ⟨hnext.symm.trans (h.trans hturned), fun _ => ?_⟩
  rw [hfacing', hfacing, hturns]

/-- What the instructions in the place of one come to, as long as the robot is running. -/
theorem run_rightward (h : Alike r s) (hfacing : s.facing = r.facing) (hr : r.terminal = false)
    (hcleared : r.Cleared l) (i : Instruction) :
    Alike (step l r i) (run l s i.rightward) ∧
      ((step l r i).terminal = false → (run l s i.rightward).facing = (step l r i).facing) := by
  have hs : s.terminal = false := h.terminal.trans hr
  cases i with
  | move =>
    have hperform : Alike (r.perform l .move) (s.perform l .move) := by
      rw [perform, perform, hfacing]
      exact h.drive l r.facing _ _
    refine ⟨h.step hr hperform, fun _ => ?_⟩
    rw [Instruction.rightward, run_cons, run_nil, facing_step l hs, facing_step l hr, perform,
      perform, facing_drive, facing_drive, hfacing]
  | moveBack =>
    -- The turns behind the move are skipped if it ends the run, so they are split off.
    obtain ⟨hturned, hreversed⟩ := alike_turnRight 2 hs (h.cleared hcleared)
    have hparts : run l s (Instruction.rightward .moveBack) =
        run l (step l (run l s (List.replicate 2 .turnRight)) .move)
          (List.replicate 2 .turnRight) := rfl
    rw [hparts]
    generalize run l s (List.replicate 2 .turnRight) = u at hturned hreversed
    have hu : Alike r u := h.trans hturned
    have hreverse : u.facing = r.facing.reverse := by
      rw [hreversed, hfacing]
      exact Direction.turnRight_turnRight _
    have hperform : Alike (r.perform l .moveBack) (u.perform l .move) := by
      rw [perform, perform, hreverse]
      exact hu.drive l r.facing.reverse _ _
    have hmoved : Alike (step l r .moveBack) (step l u .move) := hu.step hr hperform
    by_cases hend : (step l r .moveBack).terminal = true
    · rw [run_of_terminal (hmoved.terminal.trans hend)]
      exact ⟨hmoved, fun hrun => absurd hend (by simp [hrun])⟩
    · have hrun : (step l u .move).terminal = false := hmoved.terminal.trans (by simpa using hend)
      obtain ⟨hagain, hfacing'⟩ := alike_turnRight 2 hrun (step_cleared .move hrun)
      refine ⟨hmoved.trans hagain, fun _ => ?_⟩
      rw [hfacing', facing_step l (hu.terminal.trans hr), facing_step l hr, perform, perform,
        facing_drive, facing_drive, hreverse]
      exact (Direction.turnRight_turnRight _).trans (Direction.reverse_reverse _)
  | turnLeft =>
    exact alike_turn h 3 hfacing hr hcleared .turnLeft ⟨rfl, rfl, rfl, rfl⟩
      (Direction.turnRight_thrice r.facing).symm
  | turnRight => exact alike_turn h 1 hfacing hr hcleared .turnRight ⟨rfl, rfl, rfl, rfl⟩ rfl

/-- Whether the robot is still running or not, what stands in the place of an instruction does the
same for the robot that goes along. -/
theorem Follows.step (h : Follows l r s) (i : Instruction) :
    Follows l (step l r i) (run l s i.rightward) := by
  by_cases ht : r.terminal = true
  · rw [step_of_terminal ht, run_of_terminal (h.alike.terminal.trans ht)]
    exact h
  · have hr : r.terminal = false := by simpa using ht
    obtain ⟨halike, hfacing⟩ := run_rightward h.alike (h.facing hr) hr (h.cleared hr) i
    exact ⟨halike, hfacing, step_cleared i⟩

theorem Follows.run (h : Follows l r s) (t : List Instruction) :
    Follows l (run l r t) (run l s (t.flatMap Instruction.rightward)) := by
  induction t generalizing r s with
  | nil => exact h
  | cons i t ih =>
    rw [run_cons, List.flatMap_cons, run_append]
    exact ih (h.step i)

/-- On a level with neither a goal nor a coin on its start, every program can be told in moves ahead
and turns to the right, whatever its loops. The robot ends on the same cell with the same coins, has
crashed, won or neither in the same way, and faces the same way if it is still running. -/
theorem run_substitute_rightward (hgoal : ¬l.Has .goal l.start) (hcoin : ¬l.Has .coin l.start)
    (p : Program) :
    let q := p.substitute Instruction.rightward
    let r := run l (start l) p.compile.toList
    let s := run l (start l) q.compile.toList
    (∀ i ∈ q.compile, i = .move ∨ i = .turnRight) ∧
    s.position = r.position ∧ s.coins = r.coins ∧ s.crashed = r.crashed ∧ s.won = r.won ∧
    (r.status = .running → s.facing = r.facing) := by
  intro q r s
  have hcompile : q.compile.toList = p.compile.toList.flatMap Instruction.rightward :=
    p.compile_substitute Instruction.rightward
  have hstart : (start l).Cleared l := by
    refine ⟨hgoal, fun c hc => ?_⟩
    obtain ⟨hmem, hkind, hcell⟩ := Level.entity?_eq_some hc
    exact absurd ⟨c, hmem, hkind, hcell⟩ hcoin
  have hfollows : Follows l r s := by
    have hset : Follows l (start l) (start l) :=
      ⟨⟨rfl, rfl, rfl, rfl⟩, fun _ => rfl, fun _ => hstart⟩
    have hrun := hset.run p.compile.toList
    rwa [← hcompile] at hrun
  obtain ⟨⟨hposition, hcoins, hcrashed, hwon⟩, hfacing, -⟩ := hfollows
  refine ⟨?_, hposition, hcoins, hcrashed, hwon, fun hstatus => hfacing ?_⟩
  · intro i hi
    rw [← Array.mem_toList_iff, hcompile, List.mem_flatMap] at hi
    obtain ⟨j, -, hj⟩ := hi
    exact Instruction.rightward_palette hj
  · exact status_eq_running_iff.mp hstatus

/-- The robot backs all the way down to the last row and out of the corner, with no turn to the left
and no step back. -/
theorem run_substitute_rightward_loopLogic :
    let l := Campaign.loopLogic
    let p : Program := [.loop 4 [.basic .move], .basic .turnLeft, .loop 5 [.basic .moveBack],
      .basic .turnLeft, .basic .moveBack]
    let s := run l (start l) (p.substitute Instruction.rightward).compile.toList
    ¬l.Has .goal l.start ∧ ¬l.Has .coin l.start ∧
    s.position = ⟨5, 5⟩ ∧ s.coins = ["c2", "c1"] ∧ s.crashed = false ∧ s.won = true := by
  intro l p s
  have hgoal : ¬l.Has .goal l.start := by decide
  have hcoin : ¬l.Has .coin l.start := by decide
  obtain ⟨-, hposition, hcoins, hcrashed, hwon, -⟩ := run_substitute_rightward hgoal hcoin p
  have hrun : let r := run l (start l) p.compile.toList
      r.position = ⟨5, 5⟩ ∧ r.coins = ["c2", "c1"] ∧ r.crashed = false ∧ r.won = true := by
    decide +kernel
  obtain ⟨hposition', hcoins', hcrashed', hwon'⟩ := hrun
  exact ⟨hgoal, hcoin, hposition.trans hposition', hcoins.trans hcoins',
    hcrashed.trans hcrashed', hwon.trans hwon'⟩

end Robot

end GridRobot
