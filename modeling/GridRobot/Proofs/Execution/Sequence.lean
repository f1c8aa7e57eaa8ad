import GridRobot.Campaign.Levels
import GridRobot.Proofs.Execution.Recorded

/-!
# One program after another

A program followed by another one compiles to the one trace followed by the other. What of the first
trace is run does not change, and if it is run to its end, the robot goes on with the second trace
and the steps that are left. The limit is not set anew between the two, and a limit that is used up
exactly at the end of the first trace tells only if there is a second.
-/

namespace GridRobot

namespace Robot

/-- The first `k` steps of a trace that is run from a robot, numbered from `first` on. -/
def recordedFrom (l : Level) (r : Robot) (t : List Instruction) (first k : Nat) :
    List RecordedStep :=
  (t.take k).mapIdx fun n i => ⟨first + n, i, r.after l t (n + 1)⟩

end Robot

namespace Ends

open Robot

variable {l : Level} {r : Robot} {s t : List Instruction} {n j k : Nat}

/-- A run that does not use up its trace never looks at what comes behind it. -/
theorem append_right (h : Ends l r s n k)
    (ho : Outcome.of (after l r s k) k s.length ≠ .exhausted) : Ends l r (s ++ t) n k := by
  obtain ⟨hlen, hlim, hrun, hstop⟩ := h
  refine ⟨by simp only [List.length_append]; omega, hlim, ?_, ?_⟩
  · intro i hi
    rw [after_append_of_le (by omega)]
    exact hrun i hi
  · rw [Stops, after_append_of_le hlen]
    rcases hstop with ht | hs | hs
    · exact .inl ht
    · -- At the end of the trace only a crash or a win is told before the exhaustion.
      by_cases ht : (after l r s k).terminal = true
      · exact .inl ht
      · exact absurd (Outcome.of_eq_exhausted_iff.mpr ⟨by simpa using ht, hs⟩) ho
    · exact .inr (.inr hs)

/-- Behind a trace that is used up, the run goes on with the limit that is left. -/
theorem append (h : Ends l r s n s.length) (hrun : (after l r s s.length).terminal = false)
    (h' : Ends l (after l r s s.length) t (n - s.length) j) :
    Ends l r (s ++ t) n (s.length + j) := by
  have hlim := h.le_limit
  obtain ⟨hlen', hlim', hrun', hstop'⟩ := h'
  refine ⟨by simp only [List.length_append]; omega, by omega, ?_, ?_⟩
  · intro i hi
    by_cases hle : i ≤ s.length
    · rw [after_append_of_le hle]
      exact running_of_le hle hrun
    · obtain ⟨i', rfl⟩ := Nat.exists_eq_add_of_le (Nat.le_of_not_le hle)
      rw [after_append_add]
      exact hrun' i' (by omega)
  · rw [Stops, after_append_add]
    rcases hstop' with ht | hs | hs
    · exact .inl ht
    · exact .inr (.inl (by simp only [List.length_append]; omega))
    · exact .inr (.inr (by omega))

end Ends

/-- What comes behind a trace does not count for a run that has not used it up. -/
theorem Outcome.of_of_ne_exhausted {r : Robot} {k length : Nat} (m : Nat)
    (ho : Outcome.of r k length ≠ .exhausted) : Outcome.of r k (length + m) = .of r k length := by
  by_cases ht : r.terminal = true
  · simp only [of]
    cases hc : r.crashed <;> cases hw : r.won <;> simp_all [Robot.terminal]
  · have hrun : r.terminal = false := by simpa using ht
    have hlt : k < length := by
      refine Nat.lt_of_not_le fun hle => ho (of_eq_exhausted_iff.mpr ⟨hrun, hle⟩)
    rw [of_eq_stepLimit_iff.mpr ⟨hrun, hlt⟩, of_eq_stepLimit_iff.mpr ⟨hrun, by omega⟩]

namespace Program

variable {p q : Program} {level : Level} {k : Nat}

theorem robotAfter_append_of_le (h : k ≤ p.compile.size) :
    Program.robotAfter (p ++ q) level k = p.robotAfter level k := by
  rw [robotAfter, compile_append, Array.toList_append, Robot.after_append_of_le (by simpa using h)]
  rfl

theorem robotAfter_append_add (p q : Program) (level : Level) (j : Nat) :
    Program.robotAfter (p ++ q) level (p.compile.size + j) =
      (p.robotAfter level p.compile.size).after level q.compile.toList j := by
  rw [robotAfter, compile_append, Array.toList_append, ← Array.length_toList,
    Robot.after_append_add]
  rfl

theorem recorded_append_of_le (h : k ≤ p.compile.size) :
    Program.recorded (p ++ q) level k = p.recorded level k := by
  rw [recorded, compile_append, Array.toList_append,
    List.take_append_of_le_length (by simpa using h), recorded, List.mapIdx_eq_mapIdx_iff]
  intro i hi
  rw [List.length_take] at hi
  rw [robotAfter_append_of_le (by omega)]

theorem recorded_append_add (p q : Program) (level : Level) (j : Nat) :
    Program.recorded (p ++ q) level (p.compile.size + j) =
      p.recorded level p.compile.size ++
        Robot.recordedFrom level (p.robotAfter level p.compile.size) q.compile.toList
          p.compile.size j := by
  have hfirst : Program.recorded (p ++ q) level p.compile.size =
      p.recorded level p.compile.size := recorded_append_of_le (Nat.le_refl _)
  have htake : (p ++ q).compile.toList.take (p.compile.size + j) =
      (p ++ q).compile.toList.take p.compile.size ++ q.compile.toList.take j := by
    rw [compile_append, Array.toList_append, ← Array.length_toList, List.take_length_add_append,
      List.take_append_of_le_length (Nat.le_refl _), List.take_length]
  have hlen : ((p ++ q).compile.toList.take p.compile.size).length = p.compile.size := by
    rw [compile_append]
    simp
  rw [← hfirst, recorded, htake, List.mapIdx_append, hlen, recorded, Robot.recordedFrom]
  congr 2
  funext n i
  have hn : n + p.compile.size = p.compile.size + n := Nat.add_comm ..
  rw [hn, Nat.add_assoc, robotAfter_append_add]

/-- A program is followed by another one. Unless the first is exhausted, the second has no part in
the run. If it is, the run goes on from the robot at its end: with the steps that are left of the
limit, the trace of the second is run up to the first moment at which the robot has crashed or won,
or no further step is left or allowed, and how that ends is how the whole ends. -/
theorem execute_append (q : Program) (level : Level) (config : Config) (hne : p ≠ []) :
    ∃ e e', p.execute level config = .ok e ∧ Program.execute (p ++ q) level config = .ok e' ∧
      (e.stats.outcome ≠ some .exhausted → e'.steps = e.steps ∧ e'.final = e.final ∧
        e'.stats.outcome = e.stats.outcome) ∧
      (e.stats.outcome = some .exhausted →
        let t := q.compile.toList
        let left := config.maxSteps.toNat - e.steps.length
        let last := min t.length left
        ∃ j o, IsLeast {i | i ≤ last ∧ ((e.final.after level t i).terminal = true ∨ i = last)} j ∧
          e'.steps = e.steps ++ Robot.recordedFrom level e.final t e.steps.length j ∧
          e'.final = e.final.after level t j ∧
          e'.stats.outcome = some o ∧
          (o = .won ↔ e'.final.won = true) ∧
          (o = .crashed ↔ e'.final.crashed = true) ∧
          (o = .exhausted ↔ e'.final.terminal = false ∧ j = t.length) ∧
          (o = .stepLimit ↔ e'.final.terminal = false ∧ j < t.length ∧ j = left)) := by
  obtain ⟨k, hend, hexec⟩ := execute_eq level config hne
  have hne' : p ++ q ≠ [] := by simp [hne]
  obtain ⟨k', hend', hexec'⟩ := execute_eq level config hne'
  have hlen := hend.le_length
  rw [Array.length_toList] at hlen
  refine ⟨_, _, hexec, hexec', ?_, ?_⟩
  · intro ho
    have hof : Outcome.of (p.robotAfter level k) k p.compile.size ≠ .exhausted :=
      fun h => ho (congrArg some h)
    have happend : (p ++ q).EndsAfter level config k := by
      rw [EndsAfter, compile_append, Array.toList_append]
      exact Ends.append_right hend (by rw [Array.length_toList]; exact hof)
    obtain rfl : k' = k := Ends.unique hend' happend
    simp only [executionAfter, recorded_append_of_le hlen, robotAfter_append_of_le hlen,
      compile_append, Array.size_append, Outcome.of_of_ne_exhausted _ hof, and_self]
  · intro ho t left last
    obtain ⟨hrun, rfl⟩ := hend.outcome.2.2.1.mp (Option.some_inj.mp ho)
    have hlim : p.compile.size ≤ config.limit := hend.le_limit
    have hsteps : (p.executionAfter level p.compile.size).steps.length = p.compile.size :=
      length_recorded hlen
    have hleft : left = config.limit - p.compile.size := by rw [← hsteps]; rfl
    have ht : t.length = q.compile.size := Array.length_toList
    obtain ⟨j, hj⟩ := Ends.exists_of_running (l := level) t hrun left
    have happend : (p ++ q).EndsAfter level config (p.compile.size + j) := by
      rw [EndsAfter, compile_append, Array.toList_append, ← Array.length_toList]
      rw [hleft] at hj
      rw [← Array.length_toList] at hend
      exact Ends.append hend (by rw [Array.length_toList]; exact hrun)
        (by rw [Array.length_toList]; exact hj)
    obtain rfl : k' = p.compile.size + j := Ends.unique hend' happend
    obtain ⟨hwon, hcrashed, hexhausted, hlimit⟩ := hend'.outcome
    have hsize : (Program.compile (p ++ q)).size = p.compile.size + q.compile.size := by
      rw [compile_append, Array.size_append]
    have hlast : p.compile.size + j = (p ++ q).compile.size ↔ j = t.length := by omega
    have hless : p.compile.size + j < (p ++ q).compile.size ↔ j < t.length := by omega
    have hfull : p.compile.size + j = config.limit ↔ j = left := by omega
    rw [hlast] at hexhausted
    rw [hless, hfull] at hlimit
    refine ⟨j, _, hj.isLeast, ?_, ?_, rfl, hwon, hcrashed, hexhausted, hlimit⟩
    · rw [hsteps]
      exact recorded_append_add p q level j
    · exact robotAfter_append_add p q level j

/-- The first program ends exactly at the limit, which is told only when another one follows. -/
theorem execute_append_initiation :
    let p : Program := [.loop 2 [.basic .move]]
    let q : Program := [.basic .move, .basic .move]
    let config : Config := { maxSteps := 2 }
    p ≠ [] ∧ ∃ e e', p.execute Campaign.initiation config = .ok e ∧
      Program.execute (p ++ q) Campaign.initiation config = .ok e' ∧
      e.stats.outcome = some .exhausted ∧ e'.stats.outcome = some .stepLimit ∧
      e'.steps = e.steps := by
  intro p q config
  have hne : p ≠ [] := List.cons_ne_nil _ _
  obtain ⟨e, e', hexec, hexec', -, hgoes⟩ := execute_append q Campaign.initiation config hne
  have hends : (p.execute Campaign.initiation config).map (fun e =>
      (e.stats.outcome, e.steps.length, e.final.terminal)) = .ok (some .exhausted, 2, false) := by
    decide +kernel
  obtain ⟨ho, hlen, hrun⟩ : e.stats.outcome = some .exhausted ∧ e.steps.length = 2 ∧
      e.final.terminal = false := by
    simpa [hexec, Except.map] using hends
  obtain ⟨j, o, hleast, hsteps, hfinal, ho', -, -, -, hlimit⟩ := hgoes ho
  have hleft : config.maxSteps.toNat - e.steps.length = 0 := by
    rw [hlen]
    decide
  obtain rfl : j = 0 := by
    have hj := hleast.1.1
    omega
  have hfull : o = .stepLimit := by
    refine hlimit.mpr ⟨?_, by decide +kernel, hleft.symm⟩
    rw [hfinal]
    exact hrun
  refine ⟨hne, e, e', hexec, hexec', ho, by rw [ho', hfull], ?_⟩
  rw [hsteps]
  exact List.append_nil _

end Program

end GridRobot
