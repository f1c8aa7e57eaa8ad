import GridRobot.Proofs.Playback.Ends

/-!
# Ticks and the counter

While a program runs, all that a playback holds is determined by one counter: `before k` is the
playback in front of step `k` and `finished k` the one that ended after `k` steps. A tick leads from
`before k` to the next counter or to the end, and ticking until the end reaches the `finished k`
where the run `Ends`.
-/

namespace GridRobot

/-- The robot after the first `k` steps of a program, whether or not a run gets there. -/
def Program.robotAfter (program : Program) (level : Level) (k : Nat) : Robot :=
  Robot.after level (.start level) program.compile.toList k

/-- A run of the program under the configuration has exactly `k` steps. -/
def Program.EndsAfter (program : Program) (level : Level) (config : Config) (k : Nat) : Prop :=
  Ends level (.start level) program.compile.toList config.limit k

/-- Whether a run of the program under the configuration has a reason to stop in front of step `k`.
-/
def Program.StopsAt (program : Program) (level : Level) (config : Config) (k : Nat) : Prop :=
  Stops level (.start level) program.compile.toList config.limit k

instance (program : Program) (level : Level) (config : Config) (k : Nat) :
    Decidable (program.StopsAt level config k) :=
  inferInstanceAs (Decidable (Stops ..))

theorem Program.stopsAt_iff {program : Program} {level : Level} {config : Config} {k : Nat} :
    program.StopsAt level config k ↔ (program.robotAfter level k).terminal = true ∨
      program.compile.size ≤ k ∨ config.limit ≤ k := by
  rw [← Array.length_toList]
  rfl

/-- The outcome told at the end of a run can be read off the robot and the number of steps. -/
theorem Program.EndsAfter.outcome {program : Program} {level : Level} {config : Config} {k : Nat}
    (h : program.EndsAfter level config k) :
    let r := program.robotAfter level k
    let o := Outcome.of r k program.compile.size
    (o = .won ↔ r.won = true) ∧ (o = .crashed ↔ r.crashed = true) ∧
    (o = .exhausted ↔ r.terminal = false ∧ k = program.compile.size) ∧
    (o = .stepLimit ↔ r.terminal = false ∧ k < program.compile.size ∧ k = config.limit) := by
  intro r o
  have hsafe : r.Safe level := Robot.run_safe_of_safe _ (Robot.start_safe level)
  have hexhausted := h.exhausted_iff
  have hlimit := h.stepLimit_iff
  rw [Array.length_toList] at hexhausted hlimit
  exact ⟨Outcome.of_eq_won_iff hsafe.not_both, Outcome.of_eq_crashed_iff, hexhausted, hlimit⟩

namespace Playback

variable (program : Program) (level : Level) (config : Config)

def before (k : Nat) : Playback :=
  ⟨program, level, config, program.compile, .active k, program.robotAfter level k⟩

def finished (k : Nat) : Playback :=
  ⟨program, level, config, program.compile,
    .ended k (.of (program.robotAfter level k) k program.compile.size),
    program.robotAfter level k⟩

/-- A run that has begun is in front of step `k` only if nothing stops it there; before the first
step nothing has been checked. -/
def Ready (k : Nat) : Prop := 0 < k → ¬program.StopsAt level config k

variable {program level config} {k : Nat}

theorem ready_zero : Ready program level config 0 := fun h => absurd h (by decide)

theorem Ready.running (h : Ready program level config k) :
    (program.robotAfter level k).terminal = false := by
  cases k with
  | zero => exact Robot.start_running level
  | succ k =>
    have hgo := h (by omega)
    rw [Program.stopsAt_iff] at hgo
    simpa using fun ht => hgo (.inl ht)

/-- A run that stops in front of step `k` ends there. -/
theorem Ready.endsAfter (h : Ready program level config k)
    (hstop : program.StopsAt level config k) : program.EndsAfter level config k := by
  cases k with
  | zero => exact Ends.zero hstop
  | succ k => exact absurd hstop (h (by omega))

theorem robotAfter_succ {i : Instruction} (h : program.compile[k]? = some i) :
    program.robotAfter level (k + 1) = (program.robotAfter level k).step level i :=
  Robot.after_succ (by rw [Array.getElem?_toList, h])

/-- After a step the run goes on unless there is a reason to stop. -/
theorem phaseAfter_eq (p : Playback) (r : Robot) (k : Nat) :
    p.phaseAfter r k =
      if r.terminal = true ∨ p.trace.size ≤ k ∨ p.config.limit ≤ k then
        .ended k (.of r k p.trace.size)
      else .active k := by
  simp only [phaseAfter, Outcome.of, Robot.terminal, Config.limit_le_iff]
  cases r.crashed <;> cases r.won <;> simp
  by_cases hlen : p.trace.size ≤ k <;> by_cases hlim : p.config.maxSteps ≤ k <;> simp [hlen, hlim]

/-- A tick in front of a step that nothing stops performs it. -/
theorem tick_of_not_stopsAt (h : ¬program.StopsAt level config k) :
    (before program level config k).tick =
      (if program.StopsAt level config (k + 1) then finished program level config (k + 1)
        else before program level config (k + 1), some (program.robotAfter level (k + 1))) := by
  obtain ⟨-, hlen, hlim⟩ : ¬(program.robotAfter level k).terminal = true ∧
      ¬program.compile.size ≤ k ∧ ¬config.limit ≤ k := by
    simpa only [Program.stopsAt_iff, not_or] using h
  have hi : program.compile[k]? = some program.compile[k] := Array.getElem?_eq_getElem (by omega)
  have hmax : ¬config.maxSteps ≤ k := fun hc => hlim ((config.limit_le_iff k).mpr hc)
  have htick : (before program level config k).tick =
      (⟨program, level, config, program.compile,
        (before program level config k).phaseAfter (program.robotAfter level (k + 1)) (k + 1),
        program.robotAfter level (k + 1)⟩, some (program.robotAfter level (k + 1))) := by
    rw [robotAfter_succ hi]
    simp only [tick, before, hi, hmax, ↓reduceIte]
  rw [htick, phaseAfter_eq]
  by_cases hstop : program.StopsAt level config (k + 1)
  · simp only [before, Program.stopsAt_iff.mp hstop, hstop, ↓reduceIte, finished]
  · have hgo := mt Program.stopsAt_iff.mpr hstop
    simp only [before, hgo, hstop, ↓reduceIte]

/-- A tick in front of a step that must not be performed only ends the run. -/
theorem tick_of_stopsAt (hrun : (program.robotAfter level k).terminal = false)
    (hstop : program.StopsAt level config k) :
    (before program level config k).tick = (finished program level config k, none) := by
  -- The end of the trace is looked for before the limit, so exhaustion wins a tie.
  cases hi : program.compile[k]? with
  | none =>
    have hlen : program.compile.size ≤ k := by simpa using hi
    have ho : Outcome.of (program.robotAfter level k) k program.compile.size = .exhausted :=
      Outcome.of_eq_exhausted_iff.mpr ⟨hrun, hlen⟩
    simp only [tick, before, finished, hi, ho]
  | some i =>
    have hlen : k < program.compile.size := (Array.getElem?_eq_some_iff.mp hi).1
    have hmax : config.maxSteps ≤ k := by
      rw [Program.stopsAt_iff, hrun] at hstop
      rw [← Config.limit_le_iff]
      rcases hstop with ht | hs | hs
      · exact absurd ht (by decide)
      · omega
      · exact hs
    have ho : Outcome.of (program.robotAfter level k) k program.compile.size = .stepLimit :=
      Outcome.of_eq_stepLimit_iff.mpr ⟨hrun, hlen⟩
    simp only [tick, before, finished, hi, ho, hmax, ↓reduceIte]

/-- All that a tick can do in front of step `k`: it performs the step and leads in front of the next
or to the end, or it only ends the run. -/
theorem tick_cases (h : Ready program level config k) :
    (¬program.StopsAt level config k ∧ Ready program level config (k + 1) ∧
      (before program level config k).tick =
        (before program level config (k + 1), some (program.robotAfter level (k + 1)))) ∨
    (¬program.StopsAt level config k ∧ program.EndsAfter level config (k + 1) ∧
      (before program level config k).tick =
        (finished program level config (k + 1), some (program.robotAfter level (k + 1)))) ∨
    (program.EndsAfter level config k ∧
      (before program level config k).tick = (finished program level config k, none)) := by
  by_cases hstop : program.StopsAt level config k
  · exact .inr (.inr ⟨h.endsAfter hstop, tick_of_stopsAt h.running hstop⟩)
  · have htick := tick_of_not_stopsAt hstop
    by_cases hnext : program.StopsAt level config (k + 1)
    · rw [if_pos hnext] at htick
      exact .inr (.inl ⟨hstop, Ends.succ hstop hnext, htick⟩)
    · rw [if_neg hnext] at htick
      exact .inl ⟨hstop, fun _ => hnext, htick⟩

theorem lt_size_of_not_stopsAt (h : ¬program.StopsAt level config k) :
    k < program.compile.size := by
  rw [Program.stopsAt_iff] at h
  omega

/-- A run that has begun does not end in front of a step for which a playback is ready. -/
theorem Ready.lt_end {k' : Nat} (h : Ready program level config k) (hk : 0 < k) (hle : k ≤ k')
    (he : program.EndsAfter level config k') : k < k' := by
  rcases Nat.lt_or_eq_of_le hle with hlt | rfl
  · exact hlt
  · exact absurd he.stops (h hk)

@[simp] theorem drain_finished (n : Nat) :
    (finished program level config k).drain n = (finished program level config k, n) := by
  rw [drain]
  rfl

/-- Ticking until the run has ended comes to its one end, with a pause between any two steps where
the configuration asks for pauses. -/
theorem drain_before {k : Nat} (h : Ready program level config k) (n : Nat) :
    ∃ k', k ≤ k' ∧ program.EndsAfter level config k' ∧
      (before program level config k).drain n = (finished program level config k',
        if config.delay.isPositive then n + (k' - k - 1) else n) := by
  have hrun : (before program level config k).running = true := rfl
  rw [drain, dif_pos hrun]
  -- Only the first case ticks again, and then with one step less in front of it.
  rcases tick_cases h with ⟨hgo, hnext, htick⟩ | ⟨hgo, hend, htick⟩ | ⟨hend, htick⟩
  · have hlt := lt_size_of_not_stopsAt hgo
    have hgoing : (before program level config (k + 1)).running = true := rfl
    simp only [htick, hgoing, Bool.true_and]
    obtain ⟨k', hk, he, hd⟩ := drain_before hnext (if config.delay.isPositive then n + 1 else n)
    have hk' := hnext.lt_end (by omega) hk he
    refine ⟨k', by omega, he, ?_⟩
    have hpauses : n + 1 + (k' - (k + 1) - 1) = n + (k' - k - 1) := by omega
    have hdelay : (before program level config k).config.delay = config.delay := rfl
    rw [hdelay, hd]
    cases config.delay.isPositive <;> simp [hpauses]
  · have hdone : (finished program level config (k + 1)).running = false := rfl
    refine ⟨k + 1, by omega, hend, ?_⟩
    simp [htick, hdone]
  · have hdone : (finished program level config k).running = false := rfl
    refine ⟨k, by omega, hend, ?_⟩
    simp [htick, hdone]
termination_by program.compile.size - k

end Playback

end GridRobot
