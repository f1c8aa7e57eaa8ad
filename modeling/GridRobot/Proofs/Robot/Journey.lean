import GridRobot.Proofs.Robot.Step

/-!
# What a robot performs

A robot that has crashed or won performs nothing more, so of a trace it performs a first part. Each
instruction that it performs puts a line of its own on the log, and the robot then adds what it
finds on its cell; nothing is ever taken off the log.
-/

namespace GridRobot

/-- A line that no step writes. -/
def LogLine.isRemark : LogLine → Bool
  | remark _ => true
  | _ => false

namespace Robot

variable {l : Level} {r : Robot} {i : Instruction}

/-- To prove something of all runs, prove it of traces without instructions, of robots that have
crashed or won, and of a run whose first instruction is performed. -/
theorem run_induct (l : Level) {P : Robot → List Instruction → Prop} (nil : ∀ r, P r [])
    (halted : ∀ r t, r.terminal = true → P r t)
    (perform : ∀ r i t, r.terminal = false → P (step l r i) t → P r (i :: t))
    (r : Robot) (t : List Instruction) : P r t := by
  induction t generalizing r with
  | nil => exact nil r
  | cons i t ih =>
    cases hr : r.terminal with
    | true => exact halted r (i :: t) hr
    | false => exact perform r i t hr (ih (step l r i))

/-- What every instruction that is performed preserves holds at the end of a run. -/
theorem run_invariant {P : Robot → Prop}
    (hstep : ∀ r i, r.terminal = false → P r → P (step l r i)) (t : List Instruction) (h : P r) :
    P (run l r t) := by
  induction r, t using run_induct l with
  | nil r => exact h
  | halted r t hr => rw [run_of_terminal hr]; exact h
  | perform r i t hr ih => exact ih (hstep r i hr h)

/-- The instructions of a trace that a robot performs, each with the robot after it. One that finds
it crashed or won is not performed, and neither is any behind it. -/
def journey (l : Level) (r : Robot) : List Instruction → List (Instruction × Robot)
  | [] => []
  | i :: t => if r.terminal then [] else (i, step l r i) :: journey l (step l r i) t

@[simp] theorem journey_nil (l : Level) (r : Robot) : journey l r [] = [] := rfl

theorem journey_of_terminal (h : r.terminal = true) (t : List Instruction) :
    journey l r t = [] := by
  cases t with
  | nil => rfl
  | cons i t => simp only [journey, h, ↓reduceIte]

theorem journey_cons (h : r.terminal = false) (i : Instruction) (t : List Instruction) :
    journey l r (i :: t) = (i, step l r i) :: journey l (step l r i) t := by
  simp only [journey, h, Bool.false_eq_true, ↓reduceIte]

/-- The line that an instruction writes, before the robot looks at its cell. -/
def entry (l : Level) (r : Robot) (i : Instruction) : LogLine :=
  if (r.blockage? l i).isSome then .collision
  else match i with
    | .move => .moved (r.position.neighbor r.facing)
    | .moveBack => .reversed (r.position.neighbor r.facing.reverse)
    | .turnLeft => .turnedLeft
    | .turnRight => .turnedRight

/-- The line tells what was performed, unless both instructions are blocked. -/
theorem entry_inj {j : Instruction} (h : entry l r i = entry l r j) :
    i = j ∨ (r.blockage? l i).isSome = true ∧ (r.blockage? l j).isSome = true := by
  unfold entry at h
  by_cases hi : (r.blockage? l i).isSome = true <;> by_cases hj : (r.blockage? l j).isSome = true
  · exact .inr ⟨hi, hj⟩
  · rw [if_pos hi, if_neg hj] at h
    cases j <;> cases h
  · rw [if_neg hi, if_pos hj] at h
    cases i <;> cases h
  · rw [if_neg hi, if_neg hj] at h
    left
    cases i <;> cases j <;> first | rfl | cases h

theorem Lands.log {next : Robot} (h : Lands l r i next) (hb : r.blockage? l i = none) :
    next.log = entry l r i :: r.log := by
  cases h <;> simp [entry, hb]

theorem log_suffix_collect (r : Robot) (l : Level) : r.log <:+ (r.collect l).log := by
  rcases collect_cases r l with ⟨c, -, -, he⟩ | ⟨-, he⟩
  · rw [he]; exact List.suffix_cons _ _
  · simp [he]

theorem log_suffix_checkGoal (r : Robot) (l : Level) : r.log <:+ (r.checkGoal l).log := by
  rcases checkGoal_cases r l with ⟨-, he⟩ | ⟨-, he⟩
  · rw [he]; exact List.suffix_cons _ _
  · simp [he]

/-- Whatever a step finds, it goes on top of the line of the instruction. -/
theorem entry_suffix_step (i : Instruction) (h : r.terminal = false) :
    entry l r i :: r.log <:+ (step l r i).log := by
  rcases step_cases (l := l) i h with ⟨b, hb, he⟩ | ⟨hb, next, hl, he⟩
  · have hentry : entry l r i = .collision := by simp [entry, hb]
    rw [he, hentry]
    exact List.suffix_refl _
  · rw [he, ← hl.log hb]
    exact (log_suffix_collect next l).trans (log_suffix_checkGoal _ l)

theorem log_suffix_run (l : Level) (r : Robot) (t : List Instruction) :
    r.log <:+ (run l r t).log := by
  refine run_invariant (P := fun next => r.log <:+ next.log) (fun next i hr h => ?_) t
    (List.suffix_refl _)
  have hstep : next.log <:+ (step l next i).log :=
    (List.suffix_cons _ _).trans (entry_suffix_step i hr)
  exact h.trans hstep

end Robot

end GridRobot
