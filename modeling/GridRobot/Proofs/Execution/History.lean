import GridRobot.Campaign.Levels
import GridRobot.Proofs.Execution.Printed

/-!
# Running to the end after anything

Whatever has been asked of a playback before, a run to its end leaves it as a new one is left by a
run to its end. What came before shows only in how many steps are still performed, and there is a
pause between any two of these.
-/

namespace GridRobot.Playback

variable {program : Program} {level : Level} {config : Config}

/-- The number of instructions that are performed when a playback is run to its end. -/
def performed (p : Playback) : Nat := p.runTrail.countP fun q => q.tick.2.isSome

/-- From step `k` on, an instruction is performed at each step up to the end of the run. -/
theorem countP_trail {k : Nat} (h : Ready program level config k) (passed : List Playback) :
    ∃ k', k ≤ k' ∧ program.EndsAfter level config k' ∧
      ((before program level config k).trail passed).countP (fun q => q.tick.2.isSome) =
        passed.countP (fun q => q.tick.2.isSome) + (k' - k) := by
  rw [trail_of_running rfl]
  -- Only a tick that performs an instruction is counted, so all three cases need what it gives.
  rcases tick_cases h with ⟨hgo, hnext, htick⟩ | ⟨hgo, hend, htick⟩ | ⟨hend, htick⟩
  · have hlt := lt_size_of_not_stopsAt hgo
    obtain ⟨k', hk, hend, hcount⟩ := countP_trail hnext (before program level config k :: passed)
    refine ⟨k', by omega, hend, ?_⟩
    rw [htick, hcount, List.countP_cons, htick]
    simp only [Option.isSome_some, ↓reduceIte]
    omega
  · refine ⟨k + 1, by omega, hend, ?_⟩
    rw [htick, trail_finished, List.countP_reverse, List.countP_cons, htick]
    simp only [Option.isSome_some, ↓reduceIte]
    omega
  · refine ⟨k, by omega, hend, ?_⟩
    rw [htick, trail_finished, List.countP_reverse, List.countP_cons, htick]
    simp
termination_by program.compile.size - k

/-- After any operations in any order, a run to the end comes to an end, and leaves the playback as
it leaves a new one. A playback that is running is resumed where it is and any other is started
anew, and if there is a delay there is one pause less than instructions are performed, or none if
none is performed. Without a delay there is no pause. -/
theorem runToEnd_of_history (level : Level) (config : Config) (history : List Operation)
    (hne : program ≠ []) :
    let p := (new program level config).operateAll history
    ∃ q n n', p.runToEnd = .ok (q, n) ∧ (new program level config).runToEnd = .ok (q, n') ∧
      q.running = false ∧ q.outcome? ≠ none ∧
      q.stepIndex = (if p.running then p.stepIndex else 0) + p.performed ∧
      (config.delay.isPositive = true → (n : Int) = max ((p.performed : Int) - 1) 0) ∧
      (config.delay.isPositive = false → n = 0) := by
  intro p
  have hnew := new_tracks program level config
  have htracks : Tracks program level config p := operateAll_tracks history hnew
  obtain ⟨k, hready, hresume, hk⟩ := resume_eq_before htracks hne
  obtain ⟨k', hle, hend, hdrain⟩ := drain_before hready 0
  obtain ⟨k₁, n', hend₁, hrun'⟩ := runToEnd_eq_finished hnew hne
  obtain ⟨k₂, -, hend₂, hcount⟩ := countP_trail hready []
  obtain rfl : k₁ = k' := Ends.unique hend₁ hend
  obtain rfl : k₂ = k₁ := Ends.unique hend₂ hend
  have hperformed : p.performed = k₂ - k := by
    rw [performed, runTrail, hresume]
    simpa using hcount
  have hrun : p.runToEnd = .ok ((before program level config k).drain 0) := by
    rw [runToEnd, hresume]
    rfl
  rw [hdrain] at hrun
  refine ⟨_, _, n', hrun, hrun', rfl, by simp [outcome?, finished], ?_, ?_, ?_⟩
  · rw [← hk, hperformed]
    show (k₂ : Int) = _
    omega
  · intro hdelay
    rw [hdelay, hperformed, if_pos rfl]
    omega
  · intro hdelay
    simp [hdelay]

/-- Resumed in front of its last step, a run performs that step and does not pause. -/
theorem runToEnd_of_history_initiation :
    let program : Program := [.loop 4 [.basic .move]]
    let fresh := new program Campaign.initiation {}
    let p := fresh.operateAll [.runToEnd, .start, .tick, .tick, .tick]
    program ≠ [] ∧ fresh.performed = 4 ∧ p.performed = 1 ∧
    ∃ q n', p.runToEnd = .ok (q, 0) ∧ fresh.runToEnd = .ok (q, n') ∧ q.running = false := by
  intro program fresh p
  have hne : program ≠ [] := List.cons_ne_nil _ _
  have hlast : p.performed = 1 := by decide +kernel
  obtain ⟨q, n, n', hrun, hfresh, hended, -, -, hpauses, -⟩ :=
    runToEnd_of_history Campaign.initiation {} [.runToEnd, .start, .tick, .tick, .tick] hne
  have hn : (n : Int) = max ((p.performed : Int) - 1) 0 := hpauses (by decide)
  obtain rfl : n = 0 := by omega
  exact ⟨hne, by decide +kernel, hlast, q, n', hrun, hfresh, hended⟩

end GridRobot.Playback
