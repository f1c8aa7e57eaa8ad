import Mathlib.Data.Finset.Card
import GridRobot.Proofs.Robot.Lines
import GridRobot.Proofs.Robot.Safety

/-!
# The books of a run

A robot keeps its books in two places: the coins that it has, and the lines of its log. The coins
are those that lie first on the cells where its instructions left it, each id once however often it
is met, and the log has one line for each coin besides those for the instructions and for a win.
-/

namespace GridRobot.Robot

variable {l : Level} {r : Robot} {k : Nat}

/-- The books of a robot that has performed `k` instructions: a line for each coin, and no line too
many or too few. -/
structure Balanced (k : Nat) (r : Robot) : Prop where
  coins : r.log.count .coin = r.coins.length
  length : r.log.length = 1 + k + r.coins.length + r.won.toNat

theorem start_balanced (l : Level) : Balanced 0 (start l) := ⟨rfl, rfl⟩

/-- A line that is not about a coin accounts for one more instruction. -/
theorem Balanced.entry {next : Robot} {line : LogLine} (h : Balanced k r)
    (hlog : next.log = line :: r.log) (hline : line ≠ .coin) (hcoins : next.coins = r.coins)
    (hwon : next.won = r.won) : Balanced (k + 1) next := by
  constructor
  · rw [hlog, List.count_cons_of_ne hline, hcoins, h.coins]
  · rw [hlog, List.length_cons, h.length, hcoins, hwon]
    omega

theorem collect_balanced (h : Balanced k r) : Balanced k (r.collect l) := by
  rcases collect_cases r l with ⟨c, -, -, he⟩ | ⟨-, he⟩
  · rw [he]
    constructor
    · simp [h.coins]
    · simp [h.length]
      omega
  · rw [he]; exact h

theorem checkGoal_balanced (h : Balanced k r) (hw : r.won = false) :
    Balanced k (r.checkGoal l) := by
  rcases checkGoal_cases r l with ⟨-, he⟩ | ⟨-, he⟩
  · have hlength := h.length
    rw [hw] at hlength
    rw [he]
    constructor
    · simp [h.coins]
    · simp [hlength]
  · rw [he]; exact h

theorem step_balanced (i : Instruction) (hr : r.terminal = false) (h : Balanced k r) :
    Balanced (k + 1) (step l r i) := by
  obtain ⟨-, hw⟩ := terminal_eq_false_iff.mp hr
  rcases step_cases (l := l) i hr with ⟨b, -, he⟩ | ⟨hb, next, hl, he⟩
  · rw [he]
    exact h.entry rfl (by decide) rfl rfl
  · have hnext : Balanced (k + 1) next := by
      refine h.entry (hl.log hb) ?_ hl.coins hl.won
      cases hl <;> simp [Robot.entry, hb]
    rw [he]
    exact checkGoal_balanced (collect_balanced hnext) (by rw [collect_won, hl.won, hw])

/-- The books of a run balance with the number of instructions performed. -/
theorem run_balanced (t : List Instruction) (h : Balanced k r) :
    Balanced (k + (journey l r t).length) (run l r t) := by
  induction r, t using run_induct l generalizing k with
  | nil r => exact h
  | halted r t hr =>
    rw [run_of_terminal hr, journey_of_terminal hr]
    exact h
  | perform r i t hr ih =>
    have hrun := ih (step_balanced i hr h)
    rw [journey_cons hr, List.length_cons, Nat.add_comm _ 1, ← Nat.add_assoc]
    exact hrun

/-- The robot stands on a cell on which a coin of this id is the first. -/
def Finds (l : Level) (r : Robot) (id : String) : Prop :=
  r.crashed = false ∧ ∃ c, l.entity? .coin r.position = some c ∧ c.id = id

/-- A step adds the coin of the cell where it ends, unless it crashes. -/
theorem mem_coins_step_iff (i : Instruction) (hr : r.terminal = false) {id : String} :
    id ∈ (step l r i).coins ↔ id ∈ r.coins ∨ (step l r i).Finds l id := by
  rcases step_cases (l := l) i hr with ⟨b, -, he⟩ | ⟨-, next, hl, he⟩
  · rw [he]
    simp [crash, Finds]
  · have hnext : next.crashed = false := by
      rw [hl.crashed]; exact (terminal_eq_false_iff.mp hr).1
    rw [he, checkGoal_coins, mem_coins_collect_iff, hl.coins]
    simp [Finds, hnext]

theorem mem_coins_run_iff (t : List Instruction) {id : String} :
    id ∈ (run l r t).coins ↔ id ∈ r.coins ∨ ∃ s ∈ journey l r t, s.2.Finds l id := by
  induction r, t using run_induct l with
  | nil r => simp
  | halted r t hr =>
    rw [run_of_terminal hr, journey_of_terminal hr]
    simp
  | perform r i t hr ih =>
    rw [run_cons, ih, mem_coins_step_iff i hr, journey_cons hr, or_assoc]
    simp

/-- In a log without remarks, the lines about coins are counted by their text. -/
theorem Plain.count_lines_coin (h : r.Plain) :
    r.lines.count LogLine.coin.text = r.log.count .coin := by
  rw [lines, List.count_reverse, List.count, List.countP_map, List.count]
  refine List.countP_congr fun line hmem => ?_
  simpa using h.text_eq_iff hmem (a := .coin) rfl

/-- Over every run, the coins of the robot are those that it found, each once, where an instruction
that it performed without crashing left it; the log has one line for each of them and accounts
for everything else too: the first line, the instructions performed, and the win if there is one. -/
theorem run_start_accounts (l : Level) (t : List Instruction) :
    let r := run l (start l) t
    let performed := journey l (start l) t
    (∀ id, id ∈ r.coins ↔ ∃ s ∈ performed, s.2.crashed = false ∧
      ∃ c, l.entity? .coin s.2.position = some c ∧ c.id = id) ∧
    r.lines.count "Coin Collected!" = r.coins.toFinset.card ∧
    r.lines.length =
      1 + performed.length + r.coins.toFinset.card + if r.won then 1 else 0 := by
  intro r performed
  have hbooks : Balanced performed.length r := by
    simpa using run_balanced t (start_balanced l)
  have hcard : r.coins.toFinset.card = r.coins.length :=
    List.toFinset_card_of_nodup (run_safe_of_safe t (start_safe l)).nodup
  refine ⟨?_, ?_, ?_⟩
  · intro id
    rw [mem_coins_run_iff]
    simp [start, Finds, performed]
  · rw [hcard, ← hbooks.coins]
    exact (run_plain l t).count_lines_coin
  · have hwon : (if r.won then 1 else 0) = r.won.toNat := by cases r.won <;> rfl
    rw [hcard, hwon, ← hbooks.length]
    simp [lines]

end GridRobot.Robot
