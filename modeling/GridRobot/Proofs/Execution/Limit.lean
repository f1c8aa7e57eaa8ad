import GridRobot.Campaign.Levels
import GridRobot.Proofs.Execution.Recorded

/-!
# What the step limit does to a run

A limit cuts a run off and does nothing else: under a smaller limit a run is the beginning of what
it is under a larger one. The main statement says so of all that an execution gives, and that the
outcome tells whether anything was cut off.
-/

namespace GridRobot

namespace Ends

open Robot

variable {l : Level} {r : Robot} {t : List Instruction} {m n k k' : Nat}

/-- Under a smaller limit, a run ends at the limit unless it ends before. -/
theorem truncate (h : Ends l r t n k) (hle : m ≤ n) : Ends l r t m (min m k) := by
  obtain ⟨hlen, hlim, hrun, hstop⟩ := h
  refine ⟨by omega, by omega, ?_, ?_⟩
  · intro j hj
    exact hrun j (by omega)
  · by_cases hmk : m ≤ k
    · exact .inr (.inr (by omega))
    · have hmin : min m k = k := by omega
      rw [hmin]
      rcases hstop with ht | hs | hs
      · exact .inl ht
      · exact .inr (.inl hs)
      · exact .inr (.inr (by omega))

/-- A run that is not told to have reached its limit is the same under any larger limit. -/
theorem eq_of_limit_le (h : Ends l r t m k) (h' : Ends l r t n k') (hle : m ≤ n)
    (ho : Outcome.of (after l r t k) k t.length ≠ .stepLimit) : k = k' := by
  have hk : k = min m k' := h.unique (h'.truncate hle)
  by_cases hlt : k < k'
  · -- The longer run goes on from where the shorter one ends, so that one ended at its limit.
    have hlen := h'.le_length
    exact absurd (Outcome.of_eq_stepLimit_iff.mpr ⟨h'.running k hlt, by omega⟩) ho
  · omega

end Ends

namespace Program

variable {program : Program} {level : Level}

/-- Under a smaller limit, exactly the steps are recorded that are recorded first under a larger
one. Either nothing was cut off, and the two executions are the same, or the outcome is the step
limit, and then the robot could have gone on and there was an instruction left. -/
theorem execute_of_limit_le (level : Level) {config config' : Config} (hne : program ≠ [])
    (hle : config.maxSteps ≤ config'.maxSteps) :
    ∃ e e', program.execute level config = .ok e ∧ program.execute level config' = .ok e' ∧
      e.steps = e'.steps.take config.maxSteps.toNat ∧
      (e.stats.outcome ≠ some .stepLimit → e = e') ∧
      (e.stats.outcome = some .stepLimit → (e.steps.length : Int) = max config.maxSteps 0 ∧
        e.steps.length < program.compile.size ∧ e.final.terminal = false) := by
  obtain ⟨k, hend, hexec⟩ := execute_eq level config hne
  obtain ⟨k', hend', hexec'⟩ := execute_eq level config' hne
  have hlimit : config.limit ≤ config'.limit := Int.toNat_le_toNat hle
  have hk : k = min config.limit k' := Ends.unique hend (Ends.truncate hend' hlimit)
  have hlen := hend.le_length
  rw [Array.length_toList] at hlen
  refine ⟨_, _, hexec, hexec', ?_, ?_, ?_⟩
  · show program.recorded level k = (program.recorded level k').take config.limit
    rw [take_recorded, ← hk]
  · intro ho
    have hof : Outcome.of (program.robotAfter level k) k program.compile.toList.length ≠
        .stepLimit := by
      rw [Array.length_toList]
      exact fun h => ho (congrArg some h)
    rw [Ends.eq_of_limit_le hend hend' hlimit hof]
  · intro ho
    obtain ⟨-, -, -, hcut⟩ := hend.outcome
    obtain ⟨hrun, hlt, hfull⟩ := hcut.mp (Option.some_inj.mp ho)
    have hsteps : (program.executionAfter level k).steps.length = k := length_recorded hlen
    rw [hsteps, ← config.coe_limit]
    exact ⟨congrArg _ hfull, hlt, hrun⟩

/-- Two steps of the four to the goal are allowed, and the robot stands in front of the third. -/
theorem execute_of_limit_le_initiation :
    let program : Program := [.loop 4 [.basic .move]]
    let config : Config := { maxSteps := 2 }
    program ≠ [] ∧ config.maxSteps ≤ ({} : Config).maxSteps ∧
    ∃ e e', program.execute Campaign.initiation config = .ok e ∧
      program.execute Campaign.initiation {} = .ok e' ∧
      e.stats.outcome = some .stepLimit ∧ e'.stats.outcome = some .won ∧
      e.steps = e'.steps.take 2 ∧ e.steps.length = 2 ∧ e.final.terminal = false := by
  intro program config
  have hne : program ≠ [] := List.cons_ne_nil _ _
  have hle : config.maxSteps ≤ ({} : Config).maxSteps := by decide
  obtain ⟨e, e', hexec, hexec', hsteps, -, hcut⟩ :=
    execute_of_limit_le Campaign.initiation hne hle
  have hoc : (program.execute Campaign.initiation config).map (·.stats.outcome) =
      .ok (some .stepLimit) := by decide +kernel
  have hoc' : (program.execute Campaign.initiation {}).map (·.stats.outcome) =
      .ok (some .won) := by decide +kernel
  have ho : e.stats.outcome = some .stepLimit := Except.ok.inj ((congrArg _ hexec.symm).trans hoc)
  have ho' : e'.stats.outcome = some .won := Except.ok.inj ((congrArg _ hexec'.symm).trans hoc')
  obtain ⟨hlen, -, hrun⟩ := hcut ho
  have hmax : max config.maxSteps 0 = 2 := by decide
  have htwo : e.steps.length = 2 := by omega
  exact ⟨hne, hle, e, e', hexec, hexec', ho, ho', hsteps, htwo, hrun⟩

end Program

end GridRobot
