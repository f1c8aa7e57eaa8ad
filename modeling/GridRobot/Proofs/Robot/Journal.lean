import GridRobot.Proofs.Robot.Lines

/-!
# The log as a journal

Every instruction that is performed writes a line of its own, so a log tells which instructions were
performed and with them the whole robot. Only the two moves write the same line when they are
blocked, and then neither changes anything else. Read from its end, a log tells where the robot is
and whether it has crashed or won.
-/

namespace GridRobot

/-- Two lists of performed instructions that differ, if at all, in the direction of the move with
which both crashed. -/
def SameUpToCrash (r : Robot) (u v : List Instruction) : Prop :=
  u = v ∨ r.crashed = true ∧ ∃ w,
    u = w ++ [.move] ∧ v = w ++ [.moveBack] ∨ u = w ++ [.moveBack] ∧ v = w ++ [.move]

namespace SameUpToCrash

variable {r : Robot} {u v : List Instruction}

theorem cons (i : Instruction) (h : SameUpToCrash r u v) : SameUpToCrash r (i :: u) (i :: v) := by
  rcases h with rfl | ⟨hc, w, ⟨rfl, rfl⟩ | ⟨rfl, rfl⟩⟩
  · exact .inl rfl
  · exact .inr ⟨hc, i :: w, .inl ⟨rfl, rfl⟩⟩
  · exact .inr ⟨hc, i :: w, .inr ⟨rfl, rfl⟩⟩

theorem length_eq (h : SameUpToCrash r u v) : u.length = v.length := by
  rcases h with rfl | ⟨-, w, ⟨rfl, rfl⟩ | ⟨rfl, rfl⟩⟩ <;> simp

end SameUpToCrash

namespace Robot

variable {l : Level} {r : Robot} {i j : Instruction}

/-- The instructions of a trace that a robot performs. -/
def executed (l : Level) (r : Robot) (t : List Instruction) : List Instruction :=
  (journey l r t).map Prod.fst

theorem executed_of_terminal (h : r.terminal = true) (t : List Instruction) :
    executed l r t = [] := by
  rw [executed, journey_of_terminal h, List.map_nil]

theorem executed_cons (h : r.terminal = false) (i : Instruction) (t : List Instruction) :
    executed l r (i :: t) = i :: executed l (step l r i) t := by
  rw [executed, journey_cons h, List.map_cons]
  rfl

/-- Only moves are ever blocked. -/
theorem move_of_blocked (h : (r.blockage? l i).isSome = true) : i = .move ∨ i = .moveBack := by
  cases i with
  | move => exact .inl rfl
  | moveBack => exact .inr rfl
  | turnLeft | turnRight => simp [blockage?] at h

/-- Two blocked moves leave the same wreck, whatever was to come after them. -/
theorem same_of_blocked (hr : r.terminal = false) (hi : (r.blockage? l i).isSome = true)
    (hj : (r.blockage? l j).isSome = true) (s t : List Instruction) :
    run l r (i :: s) = run l r (j :: t) ∧
      SameUpToCrash (run l r (i :: s)) (executed l r (i :: s)) (executed l r (j :: t)) := by
  have hs : run l r (i :: s) = r.crash := by
    rw [run_cons, step_of_blocked hr hi, run_of_terminal r.crash_terminal]
  have ht : run l r (j :: t) = r.crash := by
    rw [run_cons, step_of_blocked hr hj, run_of_terminal r.crash_terminal]
  refine ⟨by rw [hs, ht], ?_⟩
  rw [hs, executed_cons hr, executed_cons hr, step_of_blocked hr hi, step_of_blocked hr hj,
    executed_of_terminal r.crash_terminal, executed_of_terminal r.crash_terminal]
  have hcrash : r.crash.crashed = true := rfl
  rcases move_of_blocked hi with rfl | rfl <;> rcases move_of_blocked hj with rfl | rfl
  · exact .inl rfl
  · exact .inr ⟨hcrash, [], .inl ⟨rfl, rfl⟩⟩
  · exact .inr ⟨hcrash, [], .inr ⟨rfl, rfl⟩⟩
  · exact .inl rfl

theorem entry_suffix_run (hr : r.terminal = false) (i : Instruction) (t : List Instruction) :
    entry l r i :: r.log <:+ (run l r (i :: t)).log :=
  (entry_suffix_step i hr).trans (log_suffix_run l (step l r i) t)

/-- A running robot that performs something ends with a longer log. -/
theorem log_ne_run (hr : r.terminal = false) (i : Instruction) (t : List Instruction) :
    r.log ≠ (run l r (i :: t)).log := by
  intro h
  have hlen := (entry_suffix_run (l := l) hr i t).length_le
  rw [← h, List.length_cons] at hlen
  omega

/-- Two runs of one robot with equal logs are the same run. The first line that each adds is that of
its first instruction, so these agree, or both were blocked. -/
theorem run_eq_of_log_eq (s t : List Instruction) (h : (run l r s).log = (run l r t).log) :
    run l r s = run l r t ∧
      SameUpToCrash (run l r s) (executed l r s) (executed l r t) := by
  induction r, s using run_induct l generalizing t with
  | nil r =>
    cases hr : r.terminal with
    | true =>
      rw [run_of_terminal hr, run_of_terminal hr, executed_of_terminal hr, executed_of_terminal hr]
      exact ⟨rfl, .inl rfl⟩
    | false =>
      cases t with
      | nil => exact ⟨rfl, .inl rfl⟩
      | cons j t => exact absurd h (log_ne_run hr j t)
  | halted r s hr =>
    rw [run_of_terminal hr, run_of_terminal hr, executed_of_terminal hr, executed_of_terminal hr]
    exact ⟨rfl, .inl rfl⟩
  | perform r i s hr ih =>
    cases t with
    | nil => exact absurd h.symm (log_ne_run hr i s)
    | cons j t =>
      have hi : entry l r i :: r.log <:+ (run l r (j :: t)).log := h ▸ entry_suffix_run hr i s
      have hj := entry_suffix_run (l := l) hr j t
      have hentry : entry l r i :: r.log = entry l r j :: r.log :=
        (List.suffix_of_suffix_length_le hi hj (by simp)).eq_of_length (by simp)
      rcases entry_inj (List.cons.inj hentry).1 with rfl | ⟨hbi, hbj⟩
      · obtain ⟨hrun, hsame⟩ := ih t h
        rw [executed_cons hr, executed_cons hr]
        exact ⟨hrun, hsame.cons i⟩
      · exact same_of_blocked hr hbi hbj s t

end Robot

/-- The cell that a line tells. -/
def LogLine.cell? : LogLine → Option Position
  | moved p | reversed p => some p
  | _ => none

/-- A text that begins like a line with a cell. -/
def TellsCell (s : String) : Prop :=
  "Moved to ".toList <+: s.toList ∨ "Reversed to ".toList <+: s.toList

instance (s : String) : Decidable (TellsCell s) := inferInstanceAs (Decidable (_ ∨ _))

theorem LogLine.tellsCell_text_iff {line : LogLine} (h : line.isRemark = false) :
    TellsCell line.text ↔ line.cell?.isSome = true := by
  cases line with
  | remark s => cases h
  | moved p =>
    have hprefix : "Moved to ".toList <+: (moved p).text.toList := by
      rw [toList_text_moved]
      exact ⟨'(' :: p.chars, rfl⟩
    exact iff_of_true (.inl hprefix) rfl
  | reversed p =>
    have hprefix : "Reversed to ".toList <+: (reversed p).text.toList := by
      rw [toList_text_reversed]
      exact ⟨'(' :: p.chars, rfl⟩
    exact iff_of_true (.inr hprefix) rfl
  | _ => exact iff_of_false (by decide) (by decide)

namespace Robot

variable {l : Level} {r : Robot}

/-- The latest line with a cell tells where the robot is. -/
def CellTold (r : Robot) : Prop :=
  ∀ line, r.log.find? (fun line => line.cell?.isSome) = some line → line.cell? = some r.position

/-- The log tells where the robot is and what became of it. -/
structure Told (r : Robot) : Prop where
  cell : r.CellTold
  crashed : r.crashed = true ↔ r.log.head? = some .collision
  won : r.won = true ↔ r.log.head? = some .target

theorem start_told (l : Level) : (start l).Told :=
  ⟨fun _ h => by simp [start, LogLine.cell?] at h, by simp [start], by simp [start]⟩

/-- One line keeps the log up to date if it tells the new cell, unless that is the old one, and the
new flags. -/
theorem CellTold.told_of_line {next : Robot} {line : LogLine} (h : r.CellTold)
    (hlog : next.log = line :: r.log)
    (hcell : line.cell? = some next.position ∨ line.cell? = none ∧ next.position = r.position)
    (hc : next.crashed = true ↔ line = .collision) (hw : next.won = true ↔ line = .target) :
    next.Told := by
  refine ⟨?_, by rw [hlog]; simpa using hc, by rw [hlog]; simpa using hw⟩
  intro line' hfind
  rw [hlog, List.find?_cons] at hfind
  rcases hcell with hcell | ⟨hcell, hpos⟩
  · simp only [hcell, Option.isSome_some, Option.some.injEq] at hfind
    rw [← hfind, hcell]
  · simp only [hcell, Option.isSome_none] at hfind
    rw [hpos]
    exact h line' hfind

theorem collect_told (h : r.Told) (hc : r.crashed = false) (hw : r.won = false) :
    (r.collect l).Told := by
  rcases collect_cases r l with ⟨c, -, -, he⟩ | ⟨-, he⟩
  · rw [he]
    exact h.cell.told_of_line rfl (.inr ⟨rfl, rfl⟩) (by simp [hc]) (by simp [hw])
  · rw [he]; exact h

theorem checkGoal_told (h : r.Told) (hc : r.crashed = false) : (r.checkGoal l).Told := by
  rcases checkGoal_cases r l with ⟨-, he⟩ | ⟨-, he⟩
  · rw [he]
    exact h.cell.told_of_line rfl (.inr ⟨rfl, rfl⟩) (by simp [hc]) (by simp)
  · rw [he]; exact h

theorem step_told (i : Instruction) (hr : r.terminal = false) (h : r.Told) :
    (step l r i).Told := by
  obtain ⟨hc, hw⟩ := terminal_eq_false_iff.mp hr
  rcases step_cases (l := l) i hr with ⟨b, -, he⟩ | ⟨hb, next, hl, he⟩
  · rw [he]
    exact h.cell.told_of_line rfl (.inr ⟨rfl, rfl⟩) (by simp [crash]) (by simp [crash, hw])
  · have hnc : next.crashed = false := by rw [hl.crashed, hc]
    have hnw : next.won = false := by rw [hl.won, hw]
    have hnext : next.Told := by
      refine h.cell.told_of_line (hl.log hb) ?_ ?_ ?_
      · cases hl <;> simp [entry, hb, LogLine.cell?]
      · rw [hnc]
        cases hl <;> simp [entry, hb]
      · rw [hnw]
        cases hl <;> simp [entry, hb]
    rw [he]
    exact checkGoal_told (collect_told hnext hnc hnw) (by rw [collect_crashed, hnc])

theorem run_told (l : Level) (t : List Instruction) : (run l (start l) t).Told :=
  run_invariant (fun _ i hr h => step_told i hr h) t (start_told l)

/-- In a log without remarks, the last text with a cell is that of the last line with one. -/
theorem Plain.find?_lines (h : r.Plain) : r.lines.reverse.find? (TellsCell ·) =
    (r.log.find? fun line => line.cell?.isSome).map LogLine.text := by
  rw [lines, List.reverse_reverse, List.find?_map]
  congr 1
  refine List.find?_congr fun line hmem => ?_
  rw [Bool.eq_iff_iff, Function.comp_apply, decide_eq_true_iff]
  exact LogLine.tellsCell_text_iff (h line hmem)

theorem Plain.getLast?_lines_eq_iff (h : r.Plain) {a : LogLine} (ha : a.isRemark = false) :
    r.lines.getLast? = some a.text ↔ r.log.head? = some a := by
  rw [lines, List.getLast?_reverse, List.head?_map]
  cases hhead : r.log.head? with
  | none => simp
  | some line => simpa using h.text_eq_iff (List.mem_of_head? hhead) ha

/-- The log is a faithful journal. Two runs on a level that end with the same text in their logs
end with the same robot, after the same instructions but for the direction of a move on which both
crashed; and the text of a log tells the cell on which the robot is, by its last line with a cell,
and by its last line whether the robot has crashed or won. -/
theorem run_start_journal (l : Level) :
    (∀ s t : List Instruction,
      (run l (start l) s).lines = (run l (start l) t).lines →
        run l (start l) s = run l (start l) t ∧
        (executed l (start l) s).length = (executed l (start l) t).length ∧
        SameUpToCrash (run l (start l) s) (executed l (start l) s) (executed l (start l) t)) ∧
    ∀ t : List Instruction,
      let r := run l (start l) t
      (∀ text, r.lines.reverse.find? (TellsCell ·) = some text →
        text = s!"Moved to ({r.position.x}, {r.position.y})" ∨
        text = s!"Reversed to ({r.position.x}, {r.position.y})") ∧
      (r.crashed = true ↔ r.lines.getLast? = some "CRITICAL FAILURE: Collision detected.") ∧
      (r.won = true ↔ r.lines.getLast? = some "TARGET REACHED. SEQUENCE COMPLETE.") := by
  constructor
  · intro s t h
    have hlog := (run_plain l s).log_eq_of_lines_eq (run_plain l t) h
    obtain ⟨hrun, hsame⟩ := run_eq_of_log_eq s t hlog
    exact ⟨hrun, hsame.length_eq, hsame⟩
  · intro t r
    have hplain : r.Plain := run_plain l t
    have htold : r.Told := run_told l t
    refine ⟨?_, ?_, ?_⟩
    · intro text h
      rw [hplain.find?_lines, Option.map_eq_some_iff] at h
      obtain ⟨line, hfind, rfl⟩ := h
      have hcell := htold.cell line hfind
      cases line with
      | moved p => cases hcell; exact .inl rfl
      | reversed p => cases hcell; exact .inr rfl
      | _ => cases hcell
    · rw [htold.crashed]
      exact (hplain.getLast?_lines_eq_iff (a := .collision) rfl).symm
    · rw [htold.won]
      exact (hplain.getLast?_lines_eq_iff (a := .target) rfl).symm

/-- On a board of one cell, with a coin on it, moves in both directions crash. -/
theorem run_start_journal_blocked :
    let l : Level :=
      { id := 0, name := "", description := "", size := 1, start := ⟨0, 0⟩, heading := .east,
        entities := [⟨"c", .coin, ⟨0, 0⟩⟩], optimalBlocks := 0, maxBlocks := none, palette := [],
        solution := [] }
    let s : List Instruction := [.turnLeft, .move]
    let t : List Instruction := [.turnLeft, .moveBack, .turnRight]
    (run l (start l) s).lines = (run l (start l) t).lines ∧
    executed l (start l) s ≠ executed l (start l) t ∧
    run l (start l) s = run l (start l) t ∧
    SameUpToCrash (run l (start l) s) (executed l (start l) s) (executed l (start l) t) := by
  intro l s t
  have h : (run l (start l) s).lines = (run l (start l) t).lines := rfl
  obtain ⟨hrun, -, hsame⟩ := (run_start_journal l).1 s t h
  exact ⟨h, by decide, hrun, hsame⟩

end Robot

end GridRobot
