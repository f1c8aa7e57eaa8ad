import GridRobot.Campaign.Levels
import GridRobot.Proofs.Execution.Recorded

/-!
# Running a program without compiling it

A walker follows the blocks of a program as they are nested: it goes through a list in order,
through the body of a loop as often as the count says, and halts in the middle of whatever it is in.
It never sees a trace. The main statement says that an execution, which compiles the program and
counts indexes of the trace, records the same steps and ends with the same robot and outcome.
-/

namespace GridRobot

/-- A robot on its way through the blocks, with the number of steps that it may still perform and
those that it has performed, the latest first. -/
structure Walker where
  robot : Robot
  left : Nat
  steps : List (Instruction × Robot)

/-- A walk that goes no further. -/
structure Halt where
  walker : Walker
  outcome : Outcome

namespace Walker

/-- Performs an instruction that is due, unless no step is left, and halts on a crash or a win. -/
def perform (l : Level) (w : Walker) (i : Instruction) : Except Halt Walker :=
  if w.left = 0 then .error ⟨w, .stepLimit⟩
  else
    let r := w.robot.step l i
    let next : Walker := ⟨r, w.left - 1, (i, r) :: w.steps⟩
    if r.crashed then .error ⟨next, .crashed⟩
    else if r.won then .error ⟨next, .won⟩
    else .ok next

/-- Goes through something `n` times in a row. -/
def times (w : Walker) (n : Nat) (walk : Walker → Except Halt Walker) : Except Halt Walker :=
  match n with
  | 0 => .ok w
  | n + 1 => do
    let w ← walk w
    w.times n walk

end Walker

namespace Block

mutual

def walk (l : Level) : Block → Walker → Except Halt Walker
  | basic i, w => w.perform l i
  | loop n body, w => w.times n fun w => walkAll l body w

def walkAll (l : Level) : List Block → Walker → Except Halt Walker
  | [], w => .ok w
  | b :: bs, w => do
    let w ← walk l b w
    walkAll l bs w

end

end Block

/-- A walk that gets through all blocks is exhausted. -/
def Halt.of : Except Halt Walker → Halt
  | .ok w => ⟨w, .exhausted⟩
  | .error h => h

/-- Runs a program by walking its blocks. -/
def Program.walk (program : Program) (level : Level) (config : Config) : Halt :=
  .of (Block.walkAll level program ⟨.start level, config.limit, []⟩)

namespace Walker

/-- Going `n` times through what performs a trace performs `n` copies of the trace. -/
theorem times_eq {l : Level} {walk : Walker → Except Halt Walker} {t : List Instruction}
    (h : ∀ w, walk w = t.foldlM (perform l) w) (n : Nat) (w : Walker) :
    w.times n walk = (List.replicate n t).flatten.foldlM (perform l) w := by
  induction n generalizing w with
  | zero => rfl
  | succ n ih =>
    rw [times, List.replicate_succ, List.flatten_cons, List.foldlM_append, h]
    congr 1
    funext w'
    exact ih w'

end Walker

namespace Block

mutual

/-- Walking a block performs the instructions to which it expands. -/
theorem walk_eq (l : Level) : ∀ (b : Block) (w : Walker),
    walk l b w = (expand b).foldlM (Walker.perform l) w
  | basic i, w => by simp [walk, expand]
  | loop n body, w => by
    rw [walk, expand]
    exact Walker.times_eq (walkAll_eq l body) n w

theorem walkAll_eq (l : Level) : ∀ (bs : List Block) (w : Walker),
    walkAll l bs w = (expandAll bs).foldlM (Walker.perform l) w
  | [], w => rfl
  | b :: bs, w => by
    rw [walkAll, expandAll, List.foldlM_append, walk_eq l b w]
    congr 1
    funext w'
    exact walkAll_eq l bs w'

end

end Block

namespace Robot

/-- The first `k` instructions of a trace, each with the robot after it. -/
def performed (l : Level) (r : Robot) (t : List Instruction) (k : Nat) :
    List (Instruction × Robot) :=
  (t.take k).mapIdx fun n i => (i, after l r t (n + 1))

theorem performed_cons_succ (l : Level) (r : Robot) (i : Instruction) (t : List Instruction)
    (k : Nat) : performed l r (i :: t) (k + 1) =
      (i, step l r i) :: performed l (step l r i) t k := by
  simp [performed, List.mapIdx_cons]

end Robot

namespace Walker

open Robot

/-- With a step left, what becomes of an instruction is told by the robot after it. -/
theorem perform_succ (l : Level) (r : Robot) (n : Nat) (done : List (Instruction × Robot))
    (i : Instruction) :
    let next : Walker := ⟨step l r i, n, (i, step l r i) :: done⟩
    perform l ⟨r, n + 1, done⟩ i =
      if (step l r i).terminal then .error ⟨next, if (step l r i).crashed then .crashed else .won⟩
      else .ok next := by
  cases hc : (step l r i).crashed <;> cases hw : (step l r i).won <;>
    simp [perform, terminal, hc, hw]

/-- A walker that performs a trace comes to the end of the run with the steps that lead there. -/
theorem foldlM_perform (l : Level) (t : List Instruction) {r : Robot} (hr : r.terminal = false)
    (n : Nat) (done : List (Instruction × Robot)) :
    ∃ k, Ends l r t n k ∧ Halt.of (t.foldlM (perform l) ⟨r, n, done⟩) =
      ⟨⟨after l r t k, n - k, (performed l r t k).reverse ++ done⟩,
        .of (after l r t k) k t.length⟩ := by
  -- Each step moves the robot, the limit and the steps performed, so all three are left free.
  induction t generalizing r n done with
  | nil =>
    have ho : Outcome.of r 0 0 = .exhausted := Outcome.of_eq_exhausted_iff.mpr ⟨hr, by omega⟩
    refine ⟨0, .zero (.inr (.inl (by simp))), ?_⟩
    simp [performed, ho, Halt.of, pure, Except.pure]
  | cons i t ih =>
    cases n with
    | zero =>
      have ho : Outcome.of r 0 (i :: t).length = .stepLimit :=
        Outcome.of_eq_stepLimit_iff.mpr ⟨hr, by simp⟩
      refine ⟨0, .zero (.inr (.inr (by omega))), ?_⟩
      simp only [List.foldlM_cons, perform, ↓reduceIte, bind, Except.bind, Halt.of, after_zero, ho]
      simp [performed]
    | succ n =>
      have hp := perform_succ l r n done i
      by_cases ht : (step l r i).terminal = true
      · have ho : Outcome.of (step l r i) 1 (i :: t).length =
            if (step l r i).crashed then .crashed else .won := by
          cases hc : (step l r i).crashed <;> simp_all [terminal, Outcome.of]
        refine ⟨1, .cons hr (.zero (.inl ht)), ?_⟩
        simp only [ht, ↓reduceIte] at hp
        simp only [List.foldlM_cons, hp, bind, Except.bind, Halt.of, after_cons_succ, after_zero,
          ho]
        simp [performed]
      · obtain ⟨k, hend, hwalk⟩ := ih (by simpa using ht) n ((i, step l r i) :: done)
        refine ⟨k + 1, .cons (by simpa using hr) hend, ?_⟩
        have ho : Outcome.of (after l (step l r i) t k) (k + 1) (i :: t).length =
            .of (after l (step l r i) t k) k t.length := by
          simp [Outcome.of]
        have hleft : n + 1 - (k + 1) = n - k := by omega
        simp only [ht, Bool.false_eq_true, ↓reduceIte] at hp
        simp only [List.foldlM_cons, hp, bind, Except.bind, after_cons_succ, hwalk, ho, hleft,
          performed_cons_succ]
        simp

end Walker

namespace Program

theorem map_recorded (program : Program) (level : Level) (k : Nat) :
    (program.recorded level k).map (fun s => (s.instruction, s.robot)) =
      Robot.performed level (.start level) program.compile.toList k := by
  simp only [recorded, Robot.performed, List.mapIdx_eq_zipIdx_map, List.map_map]
  rfl

/-- A walk through the blocks halts where a run of the compiled program ends. -/
theorem walk_eq (program : Program) (level : Level) (config : Config) :
    ∃ k, program.EndsAfter level config k ∧ program.walk level config =
      ⟨⟨program.robotAfter level k, config.limit - k,
        (Robot.performed level (.start level) program.compile.toList k).reverse⟩,
        .of (program.robotAfter level k) k program.compile.size⟩ := by
  obtain ⟨k, hend, hwalk⟩ := Walker.foldlM_perform level program.compile.toList
    (Robot.start_running level) config.limit []
  refine ⟨k, hend, ?_⟩
  rw [walk, Block.walkAll_eq, ← program.compile_toList, hwalk, List.append_nil,
    Array.length_toList]
  rfl

/-- Compiling a program and running its trace step by step records the same steps and ends with the
same robot and outcome as walking through its blocks, whatever the loops and the limit. -/
theorem execute_eq_walk (program : Program) (level : Level) (config : Config)
    (hne : program ≠ []) :
    let halt := program.walk level config
    ∃ e, program.execute level config = .ok e ∧
      e.steps.map (fun s => (s.instruction, s.robot)) = halt.walker.steps.reverse ∧
      e.final = halt.walker.robot ∧
      e.stats.outcome = some halt.outcome := by
  intro halt
  obtain ⟨k, hend, hexec⟩ := execute_eq level config hne
  obtain ⟨k', hend', hwalk⟩ := walk_eq program level config
  obtain rfl : k' = k := Ends.unique hend' hend
  have hhalt : halt = _ := hwalk
  refine ⟨_, hexec, ?_, ?_, ?_⟩
  · rw [hhalt, List.reverse_reverse]
    exact map_recorded program level k'
  · rw [hhalt]; rfl
  · rw [hhalt]; rfl

/-- The limit is reached inside a loop inside a loop, behind one that runs zero times. -/
theorem execute_eq_walk_nested :
    let program : Program := [.loop 0 [.basic .moveBack], .loop 3 [.basic .turnLeft, .loop 2
      [.loop 4 [], .basic .turnRight]], .basic .move]
    let halt := program.walk Campaign.initiation { maxSteps := 5 }
    program ≠ [] ∧ halt.outcome = .stepLimit ∧
    ∃ e, program.execute Campaign.initiation { maxSteps := 5 } = .ok e ∧
      e.steps.map (fun s => (s.instruction, s.robot)) = halt.walker.steps.reverse ∧
      e.final = halt.walker.robot ∧
      e.stats.outcome = some halt.outcome := by
  intro program halt
  have hne : program ≠ [] := List.cons_ne_nil _ _
  exact ⟨hne, by decide +kernel, execute_eq_walk program Campaign.initiation _ hne⟩

end Program

end GridRobot
