import GridRobot.Robot.Step

/-!
# What one step does

A step of a running robot either crashes it on something in the way, and then changes nothing else,
or lands it somewhere and looks at the cell there. `step_cases` says so with every guard; what a run
preserves is derived from it, without opening the instructions again. `step?_eq_error_iff` says which
steps cannot be performed because of their line in the log.
-/

namespace GridRobot

namespace Level

/-- An entity of this kind stands on the cell. -/
def Has (l : Level) (k : EntityKind) (p : Position) : Prop :=
  ∃ e ∈ l.entities, e.kind = k ∧ e.position = p

instance (l : Level) (k : EntityKind) (p : Position) : Decidable (l.Has k p) :=
  inferInstanceAs (Decidable (∃ e ∈ l.entities, e.kind = k ∧ e.position = p))

theorem entity?_eq_none_iff {l : Level} {k : EntityKind} {p : Position} :
    l.entity? k p = none ↔ ¬l.Has k p := by
  simp [entity?, Has]

theorem entity?_isSome_iff {l : Level} {k : EntityKind} {p : Position} :
    (l.entity? k p).isSome = true ↔ l.Has k p := by
  rw [Option.isSome_iff_ne_none, ne_eq, entity?_eq_none_iff, Decidable.not_not]

/-- A level with a goal on some cell has a first goal. -/
theorem goal?_ne_none {l : Level} {p : Position} (h : l.Has .goal p) : l.goal? ≠ none := by
  obtain ⟨e, he, hk, _⟩ := h
  have hmem : e ∈ l.entitiesOf .goal := by simp [entitiesOf, he, hk]
  intro hnone
  rw [goal?, List.head?_eq_none_iff] at hnone
  rw [hnone] at hmem
  exact List.not_mem_nil hmem

end Level

namespace Robot

@[simp] theorem note_position (r : Robot) (line : LogLine) : (r.note line).position = r.position :=
  rfl
@[simp] theorem note_facing (r : Robot) (line : LogLine) : (r.note line).facing = r.facing := rfl
@[simp] theorem note_crashed (r : Robot) (line : LogLine) : (r.note line).crashed = r.crashed := rfl
@[simp] theorem note_won (r : Robot) (line : LogLine) : (r.note line).won = r.won := rfl
@[simp] theorem note_coins (r : Robot) (line : LogLine) : (r.note line).coins = r.coins := rfl
@[simp] theorem note_log (r : Robot) (line : LogLine) : (r.note line).log = line :: r.log := rfl

/-- A coin is taken only if the robot has none of its id. -/
theorem collect_cases (r : Robot) (l : Level) :
    (∃ c, l.entity? .coin r.position = some c ∧ c.id ∉ r.coins ∧
      r.collect l = { r with coins := c.id :: r.coins }.note .coin) ∨
    ((∀ c, l.entity? .coin r.position = some c → c.id ∈ r.coins) ∧ r.collect l = r) := by
  cases h : l.entity? .coin r.position with
  | none => exact .inr ⟨by simp, by simp only [collect, h]⟩
  | some c =>
    by_cases hc : c.id ∈ r.coins
    · exact .inr ⟨by simpa using hc, by simp only [collect, h, hc, ↓reduceIte]⟩
    · exact .inl ⟨c, rfl, hc, by simp only [collect, h, hc, ↓reduceIte]⟩

@[simp] theorem collect_position (r : Robot) (l : Level) :
    (r.collect l).position = r.position := by
  rcases collect_cases r l with ⟨c, -, -, he⟩ | ⟨-, he⟩ <;> simp [he]
@[simp] theorem collect_facing (r : Robot) (l : Level) : (r.collect l).facing = r.facing := by
  rcases collect_cases r l with ⟨c, -, -, he⟩ | ⟨-, he⟩ <;> simp [he]
@[simp] theorem collect_crashed (r : Robot) (l : Level) : (r.collect l).crashed = r.crashed := by
  rcases collect_cases r l with ⟨c, -, -, he⟩ | ⟨-, he⟩ <;> simp [he]
@[simp] theorem collect_won (r : Robot) (l : Level) : (r.collect l).won = r.won := by
  rcases collect_cases r l with ⟨c, -, -, he⟩ | ⟨-, he⟩ <;> simp [he]

theorem mem_coins_collect_iff {l : Level} {r : Robot} {id : String} :
    id ∈ (r.collect l).coins ↔
      id ∈ r.coins ∨ ∃ c, l.entity? .coin r.position = some c ∧ c.id = id := by
  rcases collect_cases r l with ⟨c, hc, -, he⟩ | ⟨hall, he⟩
  · simp only [he, hc, note_coins, List.mem_cons, Option.some.injEq, exists_eq_left']
    rw [or_comm, eq_comm]
  · rw [he]
    constructor
    · exact .inl
    · rintro (h | ⟨c, hc, rfl⟩)
      · exact h
      · exact hall c hc

/-- The goal check wins on any goal, whether or not it is the level's first. -/
theorem checkGoal_cases (r : Robot) (l : Level) :
    (l.Has .goal r.position ∧ r.checkGoal l = { r with won := true }.note .target) ∨
    (¬l.Has .goal r.position ∧ r.checkGoal l = r) := by
  cases h : l.entity? .goal r.position with
  | none => exact .inr ⟨Level.entity?_eq_none_iff.mp h, by simp only [checkGoal, h]⟩
  | some g => exact .inl ⟨Level.entity?_isSome_iff.mp (by simp [h]), by simp only [checkGoal, h]⟩

@[simp] theorem checkGoal_position (r : Robot) (l : Level) :
    (r.checkGoal l).position = r.position := by
  rcases checkGoal_cases r l with ⟨-, he⟩ | ⟨-, he⟩ <;> simp [he]
@[simp] theorem checkGoal_facing (r : Robot) (l : Level) : (r.checkGoal l).facing = r.facing := by
  rcases checkGoal_cases r l with ⟨-, he⟩ | ⟨-, he⟩ <;> simp [he]
@[simp] theorem checkGoal_crashed (r : Robot) (l : Level) :
    (r.checkGoal l).crashed = r.crashed := by
  rcases checkGoal_cases r l with ⟨-, he⟩ | ⟨-, he⟩ <;> simp [he]
@[simp] theorem checkGoal_coins (r : Robot) (l : Level) : (r.checkGoal l).coins = r.coins := by
  rcases checkGoal_cases r l with ⟨-, he⟩ | ⟨-, he⟩ <;> simp [he]

theorem checkGoal_won_iff (r : Robot) (l : Level) :
    (r.checkGoal l).won = true ↔ r.won = true ∨ l.Has .goal r.position := by
  rcases checkGoal_cases r l with ⟨hg, he⟩ | ⟨hg, he⟩
  · simp [he, hg]
  · simp [he, hg]

theorem terminal_eq_false_iff {r : Robot} :
    r.terminal = false ↔ r.crashed = false ∧ r.won = false := by
  simp [terminal]

/-- What is running at the end of a run was running at its start. -/
theorem running_of_run {l : Level} {r : Robot} {t : List Instruction}
    (h : (run l r t).terminal = false) : r.terminal = false := by
  by_cases ht : r.terminal = true
  · rwa [run_of_terminal ht] at h
  · simpa using ht

theorem status_eq_running_iff {r : Robot} : r.status = .running ↔ r.terminal = false := by
  cases hc : r.crashed <;> cases hw : r.won <;> simp [status, terminal, hc, hw]

/-- An instruction that nothing stops, before the robot looks at the cell where it ends. -/
inductive Lands (l : Level) (r : Robot) : Instruction → Robot → Prop
  | move (free : l.obstacle? (r.position.neighbor r.facing) = none) :
      Lands l r .move
        ({ r with position := r.position.neighbor r.facing }.note
          (.moved (r.position.neighbor r.facing)))
  | moveBack (free : l.obstacle? (r.position.neighbor r.facing.reverse) = none) :
      Lands l r .moveBack
        ({ r with position := r.position.neighbor r.facing.reverse }.note
          (.reversed (r.position.neighbor r.facing.reverse)))
  | turnLeft : Lands l r .turnLeft ({ r with facing := r.facing.turnLeft }.note .turnedLeft)
  | turnRight : Lands l r .turnRight ({ r with facing := r.facing.turnRight }.note .turnedRight)

namespace Lands

variable {l : Level} {r next : Robot} {i : Instruction}

/-- An instruction that nothing stops is the one that is performed. -/
theorem perform_eq (h : Lands l r i next) : r.perform l i = next := by
  cases h with
  | move free => simp only [perform, drive, free]
  | moveBack free => simp only [perform, drive, free]
  | turnLeft => rfl
  | turnRight => rfl

theorem crashed (h : Lands l r i next) : next.crashed = r.crashed := by cases h <;> rfl
theorem won (h : Lands l r i next) : next.won = r.won := by cases h <;> rfl
theorem coins (h : Lands l r i next) : next.coins = r.coins := by cases h <;> rfl

/-- A robot stays where it is or enters a cell that nothing keeps it from entering. -/
theorem position (h : Lands l r i next) :
    next.position = r.position ∨ l.obstacle? next.position = none := by
  cases h with
  | move free => exact .inr free
  | moveBack free => exact .inr free
  | turnLeft => exact .inl rfl
  | turnRight => exact .inl rfl

end Lands

/-- A crash changes nothing but the flag and the log. -/
def crash (r : Robot) : Robot := { r with crashed := true }.note .collision

theorem crash_terminal (r : Robot) : r.crash.terminal = true := rfl

/-- A drive crashes on an obstacle and otherwise enters the cell. -/
theorem drive_cases (r : Robot) (l : Level) (d : Direction) (line : Position → LogLine) :
    (∃ o, l.obstacle? (r.position.neighbor d) = some o ∧ r.drive l d line = r.crash) ∨
    (l.obstacle? (r.position.neighbor d) = none ∧ r.drive l d line =
      { r with position := r.position.neighbor d }.note (line (r.position.neighbor d))) := by
  cases h : l.obstacle? (r.position.neighbor d) with
  | some o => exact .inl ⟨o, rfl, by simp only [drive, h, crash]⟩
  | none => exact .inr ⟨rfl, by simp only [drive, h]⟩

/-- The instruction of a running robot crashes it on something in the way or lands it. -/
theorem perform_cases {l : Level} {r : Robot} (i : Instruction) (h : r.terminal = false) :
    (∃ b, r.blockage? l i = some b ∧ r.perform l i = r.crash) ∨
    (r.blockage? l i = none ∧ Lands l r i (r.perform l i)) := by
  cases i with
  | move =>
    rcases drive_cases r l r.facing .moved with ⟨o, ho, hd⟩ | ⟨ho, hd⟩
    · exact .inl ⟨_, by simp [blockage?, h, ho]; rfl, hd⟩
    · exact .inr ⟨by simp [blockage?, h, ho], by rw [perform, hd]; exact .move ho⟩
  | moveBack =>
    rcases drive_cases r l r.facing.reverse .reversed with ⟨o, ho, hd⟩ | ⟨ho, hd⟩
    · exact .inl ⟨_, by simp [blockage?, h, ho]; rfl, hd⟩
    · exact .inr ⟨by simp [blockage?, h, ho], by rw [perform, hd]; exact .moveBack ho⟩
  | turnLeft => exact .inr ⟨by simp [blockage?], .turnLeft⟩
  | turnRight => exact .inr ⟨by simp [blockage?], .turnRight⟩

/-- All that a step of a running robot can do. -/
theorem step_cases {l : Level} {r : Robot} (i : Instruction) (h : r.terminal = false) :
    (∃ b, r.blockage? l i = some b ∧ step l r i = r.crash) ∨
    (r.blockage? l i = none ∧
      ∃ next, Lands l r i next ∧ step l r i = (next.collect l).checkGoal l) := by
  rcases perform_cases (l := l) i h with ⟨b, hb, hp⟩ | ⟨hb, hl⟩
  · exact .inl ⟨b, hb, by simp [step, h, hp, crash]⟩
  · have hc : (r.perform l i).crashed = false := by
      rw [hl.crashed]; exact (terminal_eq_false_iff.mp h).1
    exact .inr ⟨hb, _, hl, by simp [step, h, hc]⟩

section Lines

variable {l : Level} {r next : Robot} {i : Instruction} {line : LogLine}

@[simp] theorem unwritable?_note (r : Robot) (line : LogLine) :
    (r.note line).unwritable? = if line.Writable then none else some line := by
  by_cases h : line.Writable <;> simp [unwritable?, h]

/-- The numbers in the line of an instruction are those of a cell that the robot enters. -/
theorem Lands.exists_line (h : Lands l r i next) : ∃ line, next.log = line :: r.log ∧
    (line.numbers = [] ∨ ∃ p, l.obstacle? p = none ∧ line.numbers = [p.x, p.y]) := by
  cases h with
  | move free => exact ⟨_, rfl, .inr ⟨_, free, rfl⟩⟩
  | moveBack free => exact ⟨_, rfl, .inr ⟨_, free, rfl⟩⟩
  | turnLeft => exact ⟨_, rfl, .inl rfl⟩
  | turnRight => exact ⟨_, rfl, .inl rfl⟩

theorem Lands.writable (h : Lands l r i next) (hl : l.Writable)
    (hlog : next.log = line :: r.log) : line.Writable := by
  obtain ⟨last, hlast, hnumbers⟩ := h.exists_line
  obtain rfl : last = line := (List.cons.inj (hlast.symm.trans hlog)).1
  rcases hnumbers with hnone | ⟨p, hfree, hp⟩
  · simp [LogLine.Writable, hnone]
  · have hin := (Level.obstacle?_eq_none_iff.mp hfree).1
    simpa [LogLine.Writable, hp] using hl.coordinates hin

theorem unwritten?_eq_some_iff : unwritten? l r i = some line ↔
    r.terminal = false ∧ ¬line.Writable ∧ ∃ next, Lands l r i next ∧ next.log = line :: r.log := by
  rw [unwritten?]
  cases hr : r.terminal with
  | true => simp
  | false =>
    rw [if_neg Bool.false_ne_true]
    rcases perform_cases (l := l) i hr with ⟨b, hb, hp⟩ | ⟨-, hl⟩
    · -- A crash writes no numbers.
      have hcollision : LogLine.collision.Writable := by simp [LogLine.Writable, LogLine.numbers]
      rw [hp, crash, unwritable?_note, if_pos hcollision]
      refine iff_of_false nofun ?_
      rintro ⟨-, hline, next, hl, hlog⟩
      rw [← hl.perform_eq, hp] at hlog
      obtain rfl : LogLine.collision = line := (List.cons.inj hlog).1
      exact hline hcollision
    · obtain ⟨last, hlast, -⟩ := hl.exists_line
      rw [unwritable?, hlast, List.head?_cons, Option.filter_eq_some_iff, Option.some.injEq,
        decide_eq_true_iff]
      constructor
      · rintro ⟨rfl, hline⟩
        exact ⟨rfl, hline, _, hl, hlast⟩
      · rintro ⟨-, hline, next, hl', hlog⟩
        rw [← hl'.perform_eq, hlast] at hlog
        exact ⟨(List.cons.inj hlog).1, hline⟩

/-- A step fails exactly where its instruction lands and the line that tells so is too long. -/
theorem step?_eq_error_iff : step? l r i = .error line ↔
    r.terminal = false ∧ ¬line.Writable ∧ ∃ next, Lands l r i next ∧ next.log = line :: r.log := by
  rw [← unwritten?_eq_some_iff]
  cases h : unwritten? l r i <;> simp [step?, h]

/-- No step fails where all coordinates on the board can be written. -/
theorem step?_of_writable (h : l.Writable) (r : Robot) (i : Instruction) :
    step? l r i = .ok (step l r i) := by
  cases hs : unwritten? l r i with
  | none => simp only [step?, hs]
  | some line =>
    obtain ⟨-, hline, next, hl, hlog⟩ := unwritten?_eq_some_iff.mp hs
    exact absurd (hl.writable h hlog) hline

end Lines

theorem step_of_blocked {l : Level} {r : Robot} {i : Instruction} (hr : r.terminal = false)
    (h : (r.blockage? l i).isSome = true) : step l r i = r.crash := by
  rcases step_cases (l := l) i hr with ⟨b, -, he⟩ | ⟨hb, -⟩
  · exact he
  · rw [hb] at h
    cases h

end Robot

end GridRobot
