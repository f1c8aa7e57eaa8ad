import Mathlib.Data.List.MinMax
import GridRobot.Proofs.Robot.Crashes
import GridRobot.Proofs.Robot.Journal
import GridRobot.Proofs.Robot.Safety

/-!
# Dead reckoning

Where a robot stands and faces can be told from its start and the instructions that it has
completed, without a look at the level: each turn adds a quarter to its facing or takes one off, and
each move adds one step along the facing that the turns before it have led to. What stops a robot
only decides how many instructions it completes. So a robot has made at least as many moves as there
are cells between its start and itself, and an even number more.
-/

namespace GridRobot

/-- How many quarters of a full turn an instruction turns to the right. -/
def Instruction.turn : Instruction → Int
  | turnRight => 1
  | turnLeft => -1
  | move | moveBack => 0

namespace Direction

/-- The direction some right turns on, or left turns if the number is negative. -/
def rotate (d : Direction) (n : Int) : Direction := turnRight^[(n % 4).toNat] d

theorem quarters_lt (d : Direction) : d.quarters < 4 := by cases d <;> decide

theorem quarters_inj {d e : Direction} (h : d.quarters = e.quarters) : d = e := by
  cases d <;> cases e <;> first | rfl | cases h

theorem quarters_turnRight (d : Direction) : d.turnRight.quarters = (d.quarters + 1) % 4 := by
  cases d <;> rfl

theorem quarters_iterate (d : Direction) (n : Nat) :
    (turnRight^[n] d).quarters = (d.quarters + n) % 4 := by
  induction n with
  | zero =>
    have := d.quarters_lt
    rw [Function.iterate_zero_apply]
    omega
  | succ n ih =>
    rw [Function.iterate_succ_apply', quarters_turnRight, ih]
    omega

/-- Directions are counted modulo a full turn. -/
theorem quarters_rotate (d : Direction) (n : Int) :
    ((d.rotate n).quarters : Int) = (d.quarters + n) % 4 := by
  rw [rotate, quarters_iterate]
  omega

theorem rotate_one (d : Direction) : d.rotate 1 = d.turnRight := rfl

theorem rotate_neg_one (d : Direction) : d.rotate (-1) = d.turnLeft := by cases d <;> rfl

theorem rotate_rotate (d : Direction) (m n : Int) : (d.rotate m).rotate n = d.rotate (m + n) := by
  apply quarters_inj
  have h := quarters_rotate (d.rotate m) n
  have h' := quarters_rotate d m
  have h'' := quarters_rotate d (m + n)
  omega

end Direction

/-- The quarters by which the turns of a trace add up, those to the right less those to the left. -/
def Instruction.turns (u : List Instruction) : Int := u.count .turnRight - u.count .turnLeft

/-- The number of moves in a trace. -/
def Instruction.moves (u : List Instruction) : Nat := u.count .move + u.count .moveBack

namespace Instruction

theorem turns_cons (i : Instruction) (u : List Instruction) :
    turns (i :: u) = i.turn + turns u := by
  cases i <;> simp [turns, turn] <;> omega

theorem moves_cons (i : Instruction) (u : List Instruction) :
    moves (i :: u) = i.stride.natAbs + moves u := by
  cases i <;> simp [moves, stride] <;> omega

theorem moves_le_length (u : List Instruction) : moves u ≤ u.length := by
  induction u with
  | nil => exact Nat.le_refl 0
  | cons i u ih =>
    rw [moves_cons, List.length_cons]
    cases i <;> simp [stride] <;> omega

end Instruction

namespace Position

/-- The number of steps between two cells. -/
def distance (p q : Position) : Nat := (q.x - p.x).natAbs + (q.y - p.y).natAbs

/-- Where a robot that faces `d` gets by some instructions if nothing stops it. -/
def reckon (p : Position) (d : Direction) : List Instruction → Position
  | [] => p
  | i :: u => (p.along d i.stride).reckon (d.rotate i.turn) u

/-- Each instruction adds its stride along the facing that the turns before it have led to. -/
theorem reckon_eq_sum (p : Position) (d : Direction) (u : List Instruction) :
    p.reckon d u =
      ⟨p.x + ∑ k : Fin u.length, u[k].stride * (d.rotate (Instruction.turns (u.take k))).dx,
        p.y + ∑ k : Fin u.length, u[k].stride * (d.rotate (Instruction.turns (u.take k))).dy⟩ := by
  induction u generalizing p d with
  | nil => simp [reckon]
  | cons i u ih =>
    have hfirst : d.rotate (Instruction.turns ([] : List Instruction)) = d := rfl
    rw [reckon, ih]
    simp only [List.length_cons, Fin.sum_univ_succ, Fin.getElem_fin, Fin.val_zero, Fin.val_succ,
      List.getElem_cons_zero, List.getElem_cons_succ, List.take_zero, List.take_succ_cons,
      Instruction.turns_cons, Direction.rotate_rotate, hfirst, along, add_assoc]

theorem distance_along (p : Position) (d : Direction) (i : Instruction) :
    p.distance (p.along d i.stride) = i.stride.natAbs := by
  cases d <;> cases i <;> simp [distance, along, Instruction.stride, Direction.dx, Direction.dy]

/-- A detour takes an even number of steps more. -/
theorem distance_via (p p' q : Position) :
    p.distance q ≤ p.distance p' + p'.distance q ∧
      p.distance q % 2 = (p.distance p' + p'.distance q) % 2 := by
  have hx : (q.x - p.x).natAbs ≤ (p'.x - p.x).natAbs + (q.x - p'.x).natAbs ∧
      (q.x - p.x).natAbs ≡ (p'.x - p.x).natAbs + (q.x - p'.x).natAbs [MOD 2] := by
    rw [Nat.ModEq]
    omega
  have hy : (q.y - p.y).natAbs ≤ (p'.y - p.y).natAbs + (q.y - p'.y).natAbs ∧
      (q.y - p.y).natAbs ≡ (p'.y - p.y).natAbs + (q.y - p'.y).natAbs [MOD 2] := by
    rw [Nat.ModEq]
    omega
  simp only [distance]
  rw [Nat.add_add_add_comm]
  exact ⟨Nat.add_le_add hx.1 hy.1, hx.2.add hy.2⟩

/-- A move goes one step further away or comes one step closer, so the moves that are not needed to
get from cell to cell come in pairs. -/
theorem distance_reckon (p : Position) (d : Direction) (u : List Instruction) :
    p.distance (p.reckon d u) ≤ Instruction.moves u ∧
      p.distance (p.reckon d u) % 2 = Instruction.moves u % 2 := by
  induction u generalizing p d with
  | nil => simp [reckon, distance, Instruction.moves]
  | cons i u ih =>
    have hstep := p.distance_along d i
    have hrest := ih (p.along d i.stride) (d.rotate i.turn)
    have hvia := p.distance_via (p.along d i.stride) (p.reckon d (i :: u))
    rw [reckon] at hvia ⊢
    rw [Instruction.moves_cons]
    omega

end Position

/-- Among the entities of a kind there is one that is nearest to a cell. -/
theorem Level.exists_nearest {l : Level} {k : EntityKind} {q : Position} (h : l.Has k q)
    (p : Position) :
    ∃ g ∈ l.entities, g.kind = k ∧ ∀ g' ∈ l.entities, g'.kind = k →
      p.distance g.position ≤ p.distance g'.position := by
  obtain ⟨e, he, hk, -⟩ := h
  have hmem {g : Entity} : g ∈ l.entitiesOf k ↔ g ∈ l.entities ∧ g.kind = k := by
    simp [entitiesOf]
  cases hmin : (l.entitiesOf k).argmin fun g => p.distance g.position with
  | none =>
    rw [List.argmin_eq_none] at hmin
    exact absurd (hmem.mpr ⟨he, hk⟩) (by simp [hmin])
  | some g =>
    obtain ⟨hg, hkind⟩ := hmem.mp (List.argmin_mem hmin)
    refine ⟨g, hg, hkind, fun g' hg' hkind' => ?_⟩
    have hle := List.le_of_mem_argmin (hmem.mpr ⟨hg', hkind'⟩) hmin
    exact hle

namespace Robot

variable {l : Level} {r next : Robot} {i : Instruction} {t : List Instruction}

theorem executed_prefix_trace (l : Level) (r : Robot) (t : List Instruction) :
    executed l r t <+: t := by
  induction r, t using run_induct l with
  | nil r => exact List.prefix_refl []
  | halted r t hr =>
    rw [executed_of_terminal hr]
    exact List.nil_prefix
  | perform r i t hr ih =>
    rw [executed_cons hr]
    exact (List.prefix_cons_inj i).mpr ih

theorem run_of_executed_eq_nil (h : executed l r t = []) : run l r t = r := by
  cases t with
  | nil => rfl
  | cons i t =>
    cases hr : r.terminal with
    | true => exact run_of_terminal hr (i :: t)
    | false =>
      rw [executed_cons hr] at h
      cases h

/-- The instructions that a robot performs, without the last one if that one crashes it. -/
def completed (l : Level) (r : Robot) (t : List Instruction) : List Instruction :=
  if (run l r t).crashed then (executed l r t).dropLast else executed l r t

theorem completed_prefix_trace (l : Level) (r : Robot) (t : List Instruction) :
    completed l r t <+: t := by
  rw [completed]
  split
  · exact (List.dropLast_prefix _).trans (executed_prefix_trace l r t)
  · exact executed_prefix_trace l r t

theorem completed_nil (l : Level) (r : Robot) : completed l r [] = [] := ite_self []

theorem completed_of_terminal (h : r.terminal = true) (t : List Instruction) :
    completed l r t = [] := by
  rw [completed, executed_of_terminal h]
  exact ite_self []

theorem completed_cons_of_crashed (hr : r.terminal = false) (hc : (step l r i).crashed = true)
    (t : List Instruction) : completed l r (i :: t) = [] := by
  have hterminal : (step l r i).terminal = true := by simp [terminal, hc]
  rw [completed, run_cons, run_of_terminal hterminal, hc, executed_cons hr,
    executed_of_terminal hterminal]
  rfl

theorem completed_cons (hr : r.terminal = false) (hc : (step l r i).crashed = false)
    (t : List Instruction) : completed l r (i :: t) = i :: completed l (step l r i) t := by
  rw [completed, completed, run_cons, executed_cons hr]
  split
  · rename_i hcrash
    -- A crash comes from an instruction behind this one, so the last one is not this one.
    refine List.dropLast_cons_of_ne_nil fun hnil => ?_
    rw [run_of_executed_eq_nil hnil, hc] at hcrash
    cases hcrash
  · rfl

theorem Lands.pose (h : Lands l r i next) :
    next.position = r.position.along r.facing i.stride ∧ next.facing = r.facing.rotate i.turn := by
  cases h with
  | move => exact ⟨(Position.along_one _ _).symm, rfl⟩
  | moveBack => exact ⟨(Position.along_neg_one _ _).symm, rfl⟩
  | turnLeft => exact ⟨(Position.along_zero _ _).symm, (Direction.rotate_neg_one _).symm⟩
  | turnRight => exact ⟨(Position.along_zero _ _).symm, (Direction.rotate_one _).symm⟩

/-- A step that does not crash leads where its instruction says. -/
theorem step_pose (hr : r.terminal = false) (hc : (step l r i).crashed = false) :
    (step l r i).position = r.position.along r.facing i.stride ∧
      (step l r i).facing = r.facing.rotate i.turn := by
  rcases step_cases (l := l) i hr with ⟨b, -, he⟩ | ⟨-, next, hl, he⟩
  · rw [he] at hc
    cases hc
  · rw [he, checkGoal_position, collect_position, checkGoal_facing, collect_facing]
    exact hl.pose

/-- A run leads where the instructions say that it completes. -/
theorem run_pose (l : Level) (r : Robot) (t : List Instruction) :
    (run l r t).position = r.position.reckon r.facing (completed l r t) ∧
      (run l r t).facing = r.facing.rotate (Instruction.turns (completed l r t)) := by
  induction r, t using run_induct l with
  | nil r =>
    rw [completed_nil]
    exact ⟨rfl, rfl⟩
  | halted r t hr =>
    rw [run_of_terminal hr, completed_of_terminal hr]
    exact ⟨rfl, rfl⟩
  | perform r i t hr ih =>
    cases hc : (step l r i).crashed with
    | true =>
      have hcrash : step l r i = r.crash := (step_eq_crash_iff i hr).mpr hc
      rw [run_cons, completed_cons_of_crashed hr hc, hcrash, run_of_terminal r.crash_terminal]
      exact ⟨rfl, rfl⟩
    | false =>
      obtain ⟨hposition, hfacing⟩ := step_pose hr hc
      rw [hposition, hfacing, Direction.rotate_rotate, ← Instruction.turns_cons] at ih
      rw [run_cons, completed_cons hr hc]
      exact ih

/-- The robot has made at least as many moves as it is away from its start, and an even number
more. -/
theorem distance_run (l : Level) (r : Robot) (t : List Instruction) :
    r.position.distance (run l r t).position ≤ Instruction.moves (completed l r t) ∧
      Instruction.moves (completed l r t) % 2 = r.position.distance (run l r t).position % 2 := by
  obtain ⟨hle, hparity⟩ := r.position.distance_reckon r.facing (completed l r t)
  rw [(run_pose l r t).1]
  exact ⟨hle, hparity.symm⟩

/-- A robot that has won has come to a goal, and even the nearest one is not further away from its
start than it has performed instructions. -/
theorem distance_le_of_won (hwon : (run l (start l) t).won = true) :
    ∃ g ∈ l.entities, g.kind = .goal ∧
      (∀ g' ∈ l.entities, g'.kind = .goal →
        l.start.distance g.position ≤ l.start.distance g'.position) ∧
      l.start.distance g.position ≤ (executed l (start l) t).length := by
  have hgoal := (run_safe_of_safe t (start_safe l)).on_goal hwon
  obtain ⟨g, hg, hkind, hnearest⟩ := Level.exists_nearest hgoal l.start
  obtain ⟨e, he, hkind', hcell⟩ := hgoal
  have hcompleted : (completed l (start l) t).length ≤ (executed l (start l) t).length := by
    rw [completed]
    split
    · exact (List.dropLast_prefix _).length_le
    · exact Nat.le_refl _
  refine ⟨g, hg, hkind, hnearest, ?_⟩
  calc l.start.distance g.position
    _ ≤ l.start.distance (run l (start l) t).position := hcell ▸ hnearest e he hkind'
    _ ≤ Instruction.moves (completed l (start l) t) := (distance_run l (start l) t).1
    _ ≤ (completed l (start l) t).length := Instruction.moves_le_length _
    _ ≤ (executed l (start l) t).length := hcompleted

/-- Dead reckoning. With `u` the instructions performed, less the one that crashes the robot if it
crashes, the robot faces as the turns in `u` add up to, and it is where the moves in `u` add up to,
each one step along the facing, or against it, that the turns before it have led to. So on another
level with the same start where it completes as many instructions it stands and faces in the same
way; it has made at least as many moves as it is away from its start, and an even number more; and
no run wins in fewer steps than the nearest goal is away. -/
theorem run_start_reckoned (l : Level) (t : List Instruction) :
    let r := run l (start l) t
    let performed := executed l (start l) t
    let u := if r.crashed then performed.dropLast else performed
    let facing (k : Nat) :=
      l.heading.rotate ((u.take k).count .turnRight - (u.take k).count .turnLeft)
    let moves := u.count .move + u.count .moveBack
    (r.facing.quarters : Int) =
      (l.heading.quarters + (u.count .turnRight - u.count .turnLeft)) % 4 ∧
    (∀ k, ((facing k).quarters : Int) =
      (l.heading.quarters + ((u.take k).count .turnRight - (u.take k).count .turnLeft)) % 4) ∧
    r.position.x = l.start.x + ∑ k : Fin u.length, u[k].stride * (facing k).dx ∧
    r.position.y = l.start.y + ∑ k : Fin u.length, u[k].stride * (facing k).dy ∧
    (∀ m : Level, m.start = l.start → m.heading = l.heading →
      (completed m (start m) t).length = u.length →
      (run m (start m) t).position = r.position ∧ (run m (start m) t).facing = r.facing) ∧
    l.start.distance r.position ≤ moves ∧ moves % 2 = l.start.distance r.position % 2 ∧
    (r.won = true → ∃ g ∈ l.entities, g.kind = .goal ∧
      (∀ g' ∈ l.entities, g'.kind = .goal →
        l.start.distance g.position ≤ l.start.distance g'.position) ∧
      l.start.distance g.position ≤ performed.length) := by
  intro r performed u facing moves
  obtain ⟨hposition, hfacing⟩ := run_pose l (start l) t
  have hsum := hposition.trans (l.start.reckon_eq_sum l.heading u)
  obtain ⟨hle, hparity⟩ := distance_run l (start l) t
  refine ⟨?_, ?_, congrArg Position.x hsum, congrArg Position.y hsum, ?_, hle, hparity,
    distance_le_of_won⟩
  · rw [hfacing, Direction.quarters_rotate]
    rfl
  · intro k
    exact Direction.quarters_rotate _ _
  · intro m hstart hheading hlength
    obtain ⟨hposition', hfacing'⟩ := run_pose m (start m) t
    -- Both are first parts of one trace, so they are the same if they are equally long.
    have hsame : completed m (start m) t = u := by
      have htake := completed_prefix_trace m (start m) t
      have htake' : u <+: t := completed_prefix_trace l (start l) t
      rw [List.prefix_iff_eq_take] at htake htake'
      rw [htake, htake', hlength]
    have hpose : (start m).position = l.start ∧ (start m).facing = l.heading := ⟨hstart, hheading⟩
    rw [hposition', hfacing', hsame, hpose.1, hpose.2]
    exact ⟨hposition.symm, hfacing.symm⟩

end Robot

end GridRobot
