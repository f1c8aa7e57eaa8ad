import GridRobot.Proofs.Playback.Ends

/-!
# When a robot crashes, and what a crash changes

A running robot crashes exactly if its instruction is a move and the cell that the move leads to is
off the board or has a wall. A crash is one line in the log and a flag: the robot does not look at
its cell then, so a coin that it has not taken and a goal that it has not noticed stay as they are.
-/

namespace GridRobot

/-- How far an instruction leads along the facing of a robot that nothing stops. -/
def Instruction.stride : Instruction → Int
  | move => 1
  | moveBack => -1
  | turnLeft | turnRight => 0

/-- The cell some steps along a direction. -/
def Position.along (p : Position) (d : Direction) (n : Int) : Position :=
  ⟨p.x + n * d.dx, p.y + n * d.dy⟩

namespace Position

variable (p : Position) (d : Direction)

@[simp] theorem along_zero : p.along d 0 = p := by simp [along]

@[simp] theorem along_one : p.along d 1 = p.neighbor d := by simp [along, neighbor]

@[simp] theorem along_neg_one : p.along d (-1) = p.neighbor d.reverse := by
  cases d <;> simp [along, neighbor, Direction.reverse, Direction.dx, Direction.dy]

end Position

theorem Level.obstacle?_isSome_iff {l : Level} {p : Position} :
    (l.obstacle? p).isSome = true ↔ ¬l.Inside p ∨ l.Has .wall p := by
  rw [Option.isSome_iff_ne_none, ne_eq, obstacle?_eq_none_iff, entity?_eq_none_iff]
  tauto

namespace Robot

variable {l : Level} {r : Robot} {i : Instruction} {t : List Instruction} {k : Nat}

/-- Only a move can be stopped, by the edge of the board or by a wall. -/
theorem blockage?_isSome_iff (hr : r.terminal = false) :
    (r.blockage? l i).isSome = true ↔ (i = .move ∨ i = .moveBack) ∧
      (¬l.Inside (r.position.along r.facing i.stride) ∨
        l.Has .wall (r.position.along r.facing i.stride)) := by
  cases i with
  | move => simp [blockage?, hr, Instruction.stride, Level.obstacle?_isSome_iff]
  | moveBack => simp [blockage?, hr, Instruction.stride, Level.obstacle?_isSome_iff]
  | turnLeft => simp [blockage?]
  | turnRight => simp [blockage?]

/-- A step crashes a robot exactly if something is in its way. -/
theorem step_crashed_iff (i : Instruction) (hr : r.terminal = false) :
    (step l r i).crashed = true ↔ (r.blockage? l i).isSome = true := by
  rcases step_cases (l := l) i hr with ⟨b, hb, he⟩ | ⟨hb, next, hl, he⟩
  · rw [he, hb]
    exact iff_of_true rfl rfl
  · have hc : next.crashed = false := by rw [hl.crashed, (terminal_eq_false_iff.mp hr).1]
    rw [he, checkGoal_crashed, collect_crashed, hc, hb]
    exact iff_of_false (by decide) (by decide)

/-- The crash itself: the move does not happen, and nothing else does. -/
theorem step_eq_crash_iff (i : Instruction) (hr : r.terminal = false) :
    step l r i = r.crash ↔ (step l r i).crashed = true := by
  constructor
  · intro h
    rw [h]
    rfl
  · intro h
    exact step_of_blocked hr ((step_crashed_iff i hr).mp h)

/-- In front of each instruction of a run, the robot goes on to crash exactly if it is running, the
instruction is a move, and the cell one step along its facing, or one step against it for a move
back, is off the board or has a wall. Then it is as it was but for the flag and one more line in its
log, whatever it has not taken or noticed where it is, and it stays so to the end of the run. -/
theorem run_start_crashes (l : Level) (hi : t[k]? = some i) :
    let r := after l (start l) t k
    let next := after l (start l) t (k + 1)
    let x := r.position.x + i.stride * r.facing.dx
    let y := r.position.y + i.stride * r.facing.dy
    (r.crashed = false ∧ next.crashed = true ↔
      r.terminal = false ∧ (i = .move ∨ i = .moveBack) ∧
        (x < 0 ∨ l.size ≤ x ∨ y < 0 ∨ l.size ≤ y ∨ l.Has .wall ⟨x, y⟩)) ∧
    (r.crashed = false ∧ next.crashed = true →
      next = { r with crashed := true, log := .collision :: r.log } ∧
      next.lines = r.lines ++ ["CRITICAL FAILURE: Collision detected."] ∧
      ∀ j, k < j → after l (start l) t j = next) := by
  intro r next x y
  have hnext : next = step l r i := after_succ hi
  have hrunning : r.crashed = false ∧ next.crashed = true → r.terminal = false := by
    rintro ⟨hc, hc'⟩
    by_contra ht
    rw [hnext, step_of_terminal (by simpa using ht), hc] at hc'
    cases hc'
  constructor
  · have hcell : r.position.along r.facing i.stride = ⟨x, y⟩ := rfl
    have hout : ¬l.Inside ⟨x, y⟩ ↔ x < 0 ∨ l.size ≤ x ∨ y < 0 ∨ l.size ≤ y := by
      simp only [Level.Inside]
      omega
    have hblocked (hr : r.terminal = false) : next.crashed = true ↔ (i = .move ∨ i = .moveBack) ∧
        (x < 0 ∨ l.size ≤ x ∨ y < 0 ∨ l.size ≤ y ∨ l.Has .wall ⟨x, y⟩) := by
      rw [hnext, step_crashed_iff i hr, blockage?_isSome_iff hr, hcell, hout]
      simp only [or_assoc]
    constructor
    · intro h
      exact ⟨hrunning h, (hblocked (hrunning h)).mp h.2⟩
    · rintro ⟨hr, h⟩
      exact ⟨(terminal_eq_false_iff.mp hr).1, (hblocked hr).mpr h⟩
  · intro h
    have hcrash : next = r.crash := by
      rw [hnext, step_eq_crash_iff i (hrunning h), ← hnext]
      exact h.2
    refine ⟨hcrash, ?_, ?_⟩
    · rw [hcrash]
      simp [lines, crash, note, LogLine.text]
    · intro j hj
      have hterminal : next.terminal = true := by rw [hcrash, crash_terminal]
      exact after_of_terminal hj hterminal

/-- A coin and the goal are on the start, and the robot backs into a wall before it looks. -/
theorem run_start_crashes_unnoticed :
    let l : Level :=
      { id := 0, name := "", description := "", size := 2, start := ⟨0, 1⟩, heading := .west,
        entities := [⟨"c", .coin, ⟨0, 1⟩⟩, ⟨"g", .goal, ⟨0, 1⟩⟩, ⟨"w", .wall, ⟨1, 1⟩⟩],
        optimalBlocks := 0, maxBlocks := none, palette := [], solution := [] }
    let t : List Instruction := [.moveBack, .turnLeft, .move]
    t[0]? = some .moveBack ∧ (after l (start l) t 1).crashed = true ∧
    ∀ j, 0 < j → after l (start l) t j =
      { position := ⟨0, 1⟩, facing := .west, crashed := true, won := false, coins := [],
        log := [.collision, .online] } := by
  intro l t
  have hi : t[0]? = some .moveBack := rfl
  obtain ⟨hiff, hrest⟩ := run_start_crashes l hi
  have hcrashed := hiff.mpr ⟨rfl, .inr rfl, by decide⟩
  obtain ⟨hnext, -, hstays⟩ := hrest hcrashed
  refine ⟨hi, hcrashed.2, ?_⟩
  intro j hj
  rw [hstays j hj, hnext]
  rfl

end Robot

end GridRobot
