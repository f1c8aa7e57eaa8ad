import GridRobot.Campaign.Levels
import GridRobot.Proofs.Execution.Recorded

/-!
# What obstacles do to a run

More walls and a smaller board only keep a robot out of cells; what it finds on the cells that it
does enter stays the same. So a run on the level with more obstacles is the run on the level with
fewer, up to the step in which it crashes, if it crashes at all. That last step is the only one that
can be different: on the level with fewer obstacles the robot may get through.
-/

namespace GridRobot

/-- The second list is the first one with walls put in anywhere. -/
inductive Walled : List Entity → List Entity → Prop
  | nil : Walled [] []
  | keep (e : Entity) {es fs : List Entity} (rest : Walled es fs) : Walled (e :: es) (e :: fs)
  | wall {w : Entity} {es fs : List Entity} (kind : w.kind = .wall) (rest : Walled es fs) :
      Walled es (w :: fs)

namespace Walled

variable {es fs : List Entity}

theorem subset (h : Walled es fs) : es ⊆ fs := by
  induction h with
  | nil => exact List.Subset.refl _
  | keep e rest ih => exact List.cons_subset_cons e ih
  | wall kind rest ih => exact List.subset_cons_of_subset _ ih

/-- A search that passes over walls finds the same. -/
theorem find?_eq (h : Walled es fs) {p : Entity → Bool} (hp : ∀ e, e.kind = .wall → p e = false) :
    fs.find? p = es.find? p := by
  induction h with
  | nil => rfl
  | keep e rest ih => rw [List.find?_cons, List.find?_cons, ih]
  | wall kind rest ih => rw [List.find?_cons, hp _ kind, ih]

end Walled

namespace Level

variable {l m : Level} {k : EntityKind} {p : Position}

/-- On `m` there is more in the way than on `l`: the board is no larger, and there may be walls
anywhere among the entities. -/
structure Obstructed (l m : Level) : Prop where
  size : m.size ≤ l.size
  start : m.start = l.start
  heading : m.heading = l.heading
  entities : Walled l.entities m.entities

namespace Obstructed

theorem entity?_eq (h : l.Obstructed m) (hk : k ≠ .wall) : m.entity? k p = l.entity? k p := by
  refine h.entities.find?_eq fun e he => ?_
  simp only [he, hk.symm, false_and, decide_false]

/-- Where nothing stops the robot on `m`, nothing does on `l`. -/
theorem obstacle?_eq_none (h : l.Obstructed m) (hfree : m.obstacle? p = none) :
    l.obstacle? p = none := by
  rw [obstacle?_eq_none_iff, entity?_eq_none_iff] at hfree ⊢
  obtain ⟨hinside, hwall⟩ := hfree
  have hsize := h.size
  refine ⟨?_, fun ⟨w, hw, hon⟩ => hwall ⟨w, h.entities.subset hw, hon⟩⟩
  simp only [Inside] at hinside ⊢
  omega

end Obstructed

end Level

namespace Robot

variable {l m : Level} {r : Robot}

theorem drive_of_obstructed (h : l.Obstructed m) {d : Direction} {line : Position → LogLine}
    (hc : (r.drive m d line).crashed = false) : r.drive l d line = r.drive m d line := by
  rcases drive_cases r m d line with ⟨o, -, he⟩ | ⟨hfree, he⟩
  · rw [he] at hc
    exact absurd hc (by simp [crash])
  · rcases drive_cases r l d line with ⟨o, hblocked, -⟩ | ⟨-, he'⟩
    · rw [h.obstacle?_eq_none hfree] at hblocked
      exact absurd hblocked (by simp)
    · rw [he, he']

theorem perform_of_obstructed (h : l.Obstructed m) {i : Instruction}
    (hc : (r.perform m i).crashed = false) : r.perform l i = r.perform m i := by
  cases i with
  | move => exact drive_of_obstructed h hc
  | moveBack => exact drive_of_obstructed h hc
  | turnLeft => rfl
  | turnRight => rfl

/-- A step that does not crash is the same with fewer obstacles. -/
theorem step_of_obstructed (h : l.Obstructed m) {i : Instruction}
    (hc : (step m r i).crashed = false) : step l r i = step m r i := by
  have hcoin (s : Robot) : s.collect l = s.collect m := by
    rw [collect, collect, h.entity?_eq (by decide)]
  have hgoal (s : Robot) : s.checkGoal l = s.checkGoal m := by
    rw [checkGoal, checkGoal, h.entity?_eq (by decide)]
  by_cases ht : r.terminal = true
  · rw [step_of_terminal ht, step_of_terminal ht]
  · have hperform : (r.perform m i).crashed = false := by
      cases hcrash : (r.perform m i).crashed with
      | false => rfl
      | true => simp [step, ht, hcrash] at hc
    simp only [step, ht, perform_of_obstructed h hperform, hcoin, hgoal]

/-- A robot that has not crashed got as far with fewer obstacles. -/
theorem run_of_obstructed (h : l.Obstructed m) {t : List Instruction}
    (hc : (run m r t).crashed = false) : run l r t = run m r t := by
  induction t generalizing r with
  | nil => rfl
  | cons i t ih =>
    have hstep : (step m r i).crashed = false := by
      -- A robot that crashes stays crashed to the end of the run.
      by_contra hcrash
      have hterminal : (step m r i).terminal = true := by simp_all [terminal]
      rw [run_cons, run_of_terminal hterminal] at hc
      exact hcrash hc
    rw [run_cons, run_cons, step_of_obstructed h hstep, ih hc]

end Robot

namespace Program

variable {l m : Level} {program : Program} {config : Config} {k : Nat}

theorem robotAfter_of_obstructed (h : l.Obstructed m)
    (hc : (program.robotAfter m k).crashed = false) :
    program.robotAfter l k = program.robotAfter m k := by
  have hstart : Robot.start l = Robot.start m := by
    rw [Robot.start, Robot.start, h.start, h.heading]
  rw [robotAfter, Robot.after, hstart]
  exact Robot.run_of_obstructed h hc

/-- A run that does not crash ends with fewer obstacles as it does with more. -/
theorem executionAfter_of_obstructed (h : l.Obstructed m) (hend : program.EndsAfter m config k)
    (hc : (program.robotAfter m k).crashed = false) :
    program.EndsAfter l config k ∧ program.executionAfter l k = program.executionAfter m k := by
  have hsame (j : Nat) (hj : j ≤ k) : program.robotAfter l j = program.robotAfter m j := by
    refine robotAfter_of_obstructed h ?_
    rcases Nat.lt_or_eq_of_le hj with hlt | rfl
    · exact (Robot.terminal_eq_false_iff.mp (hend.running j hlt)).1
    · exact hc
  exact ⟨Ends.transfer rfl (fun j hj => congrArg Robot.terminal (hsame j hj)) hend,
    executionAfter_congr hsame⟩

/-- A run that crashes comes, with fewer obstacles, at least to the step that crashes, and it is the
same in front of that step. -/
theorem recorded_of_obstructed (h : l.Obstructed m) {k' : Nat}
    (hend : program.EndsAfter m config (k + 1)) (hend' : program.EndsAfter l config k') :
    k + 1 ≤ k' ∧ (program.recorded l k').take k = (program.recorded m (k + 1)).take k := by
  have hrun (j : Nat) (hj : j ≤ k) : (program.robotAfter m j).terminal = false :=
    hend.running j (by omega)
  have hsame (j : Nat) (hj : j ≤ k) : program.robotAfter l j = program.robotAfter m j :=
    robotAfter_of_obstructed h (Robot.terminal_eq_false_iff.mp (hrun j hj)).1
  have hle : k + 1 ≤ k' := by
    have hlen := hend.le_length
    have hlim := hend.le_limit
    by_contra hlt
    -- An earlier end on `l` would be an end on `m`, too, where the run goes on behind `k` steps.
    rcases hend'.stops with ht | hs | hs
    · have hterminal : (program.robotAfter l k').terminal = true := ht
      rw [hsame k' (by omega), hrun k' (by omega)] at hterminal
      exact absurd hterminal (by decide)
    · omega
    · omega
  refine ⟨hle, ?_⟩
  rw [take_recorded, take_recorded, Nat.min_eq_left (by omega), Nat.min_eq_left (by omega)]
  exact recorded_congr hsame

/-- On two levels of which the second has more in the way, any program is executed the same if it
does not crash on the second, with the same steps, end and statistics. If it does, in its last step,
then at least as many steps are recorded on the first, and all before that one are the same. -/
theorem execute_of_obstructed (h : l.Obstructed m) (program : Program) (config : Config) :
    (program = [] → program.execute l config = .error .emptyProgram ∧
      program.execute m config = .error .emptyProgram) ∧
    (program ≠ [] → ∃ e e', program.execute l config = .ok e ∧
      program.execute m config = .ok e' ∧
      (e'.stats.outcome ≠ some .crashed → e = e') ∧
      (e'.stats.outcome = some .crashed → ∃ k, e'.steps.length = k + 1 ∧
        k + 1 ≤ e.steps.length ∧ e.steps.take k = e'.steps.take k)) := by
  constructor
  · intro he
    exact ⟨execute_of_empty l config he, execute_of_empty m config he⟩
  · intro hne
    obtain ⟨k', hend', hexec'⟩ := execute_eq l config hne
    obtain ⟨k, hend, hexec⟩ := execute_eq m config hne
    obtain ⟨-, hcrashed, -, -⟩ := hend.outcome
    refine ⟨_, _, hexec', hexec, ?_, ?_⟩
    · intro ho
      have hc : (program.robotAfter m k).crashed = false :=
        Bool.eq_false_iff.mpr fun hc => ho (congrArg some (hcrashed.mpr hc))
      obtain ⟨hends, hsame⟩ := executionAfter_of_obstructed h hend hc
      obtain rfl : k' = k := Ends.unique hend' hends
      exact hsame
    · intro ho
      have hc := hcrashed.mp (Option.some_inj.mp ho)
      cases k with
      | zero => exact absurd hc Bool.false_ne_true
      | succ k =>
        have hlen := hend.le_length
        have hlen' := hend'.le_length
        rw [Array.length_toList] at hlen hlen'
        obtain ⟨hle, hsame⟩ := recorded_of_obstructed h hend hend'
        have hsteps : (program.executionAfter m (k + 1)).steps.length = k + 1 :=
          length_recorded hlen
        have hsteps' : (program.executionAfter l k').steps.length = k' := length_recorded hlen'
        exact ⟨k, hsteps, by omega, hsame⟩

/-- With a column and a row less the terminal is off the board, and the robot crashes in front of it
in the fourth and last step. A wall away from its way makes no difference. -/
theorem execute_of_obstructed_initiation :
    let l := Campaign.initiation
    let m : Level := { l with
      size := 4
      size_pos := by decide
      entities := [⟨"e1", .goal, ⟨4, 2⟩⟩, ⟨"w1", .wall, ⟨2, 0⟩⟩, ⟨"w3", .wall, ⟨1, 1⟩⟩,
        ⟨"w2", .wall, ⟨2, 4⟩⟩] }
    l.Obstructed m ∧ ∃ e e', l.solution.execute l {} = .ok e ∧ l.solution.execute m {} = .ok e' ∧
      e.stats.outcome = some .won ∧ e'.stats.outcome = some .crashed ∧
      e'.steps.length = 4 ∧ 4 ≤ e.steps.length ∧ e.steps.take 3 = e'.steps.take 3 := by
  intro l m
  have hobstructed : l.Obstructed m :=
    ⟨by decide, rfl, rfl, .keep _ (.keep _ (.wall rfl (.keep _ .nil)))⟩
  obtain ⟨e, e', hexec, hexec', -, hcrash⟩ :=
    (execute_of_obstructed hobstructed l.solution {}).2 (List.cons_ne_nil _ _)
  have hwon : (l.solution.execute l {}).map (·.stats.outcome) = .ok (some .won) := by
    decide +kernel
  have hends : (l.solution.execute m {}).map (fun e => (e.stats.outcome, e.steps.length)) =
      .ok (some .crashed, 4) := by
    decide +kernel
  rw [hexec] at hwon
  obtain ⟨ho, hlen⟩ : e'.stats.outcome = some .crashed ∧ e'.steps.length = 4 := by
    simpa [hexec', Except.map] using hends
  obtain ⟨k, hk, hle, hsame⟩ := hcrash ho
  obtain rfl : k = 3 := by omega
  exact ⟨hobstructed, e, e', hexec, hexec', Except.ok.inj hwon, ho, hlen, hle, hsame⟩

end Program

end GridRobot
