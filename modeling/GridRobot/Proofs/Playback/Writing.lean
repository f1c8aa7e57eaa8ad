import GridRobot.Proofs.Execution.Printed

/-!
# Lines that cannot be written

A run may come to a cell with coordinates that are too long for its log. The first line that cannot
be written from a playback on is found on its way to the end, and there is none on a board that has
only coordinates that can be written.
-/

namespace GridRobot.Playback

variable {program : Program} {level : Level} {config : Config} {p : Playback} {line : LogLine}

theorem Tracks.not_writable (h : Tracks program level config p) (hline : p.unwritten? = some line) :
    ¬line.Writable ∧ ¬level.Writable := by
  obtain ⟨i, hi⟩ : ∃ i, p.robot.unwritten? level i = some line := by
    rw [← h.level_eq]
    cases hp : p.phase with
    | active k =>
      simp only [unwritten?, hp] at hline
      split at hline
      · cases hline
      · obtain ⟨i, -, hi⟩ := Option.bind_eq_some_iff.mp hline
        exact ⟨i, hi⟩
    | idle => simp [unwritten?, hp] at hline
    | ended => simp [unwritten?, hp] at hline
  obtain ⟨-, hlong, next, hlands, hlog⟩ := Robot.unwritten?_eq_some_iff.mp hi
  exact ⟨hlong, fun hw => hlong (hlands.writable hw hlog)⟩

/-- A tick that performs nothing ends the run. -/
theorem running_tick_of_none (h : p.tick.2 = none) : p.tick.1.running = false := by
  cases hp : p.phase with
  | active k =>
    cases hi : p.trace[k]? with
    | none => simp [tick, running, hp, hi]
    | some i =>
      by_cases hmax : p.config.maxSteps ≤ k
      · simp [tick, running, hp, hi, hmax]
      · simp [tick, hp, hi, hmax] at h
  | idle => simp [tick, running, hp]
  | ended => simp [tick, running, hp]

/-- The first line that cannot be written from a playback on to its end. -/
def unwrittenFrom? (p : Playback) : Option LogLine := (p.trail []).findSome? unwritten?

theorem unwrittenFrom?_of_running (h : p.running = true) :
    p.unwrittenFrom? = p.unwritten?.or p.tick.1.unwrittenFrom? := by
  rw [unwrittenFrom?, trail_of_running h, trail_eq_append]
  cases hp : p.unwritten? <;> simp [unwrittenFrom?, hp]

theorem unwrittenFrom?_of_not_running (h : p.running = false) : p.unwrittenFrom? = none := by
  rw [unwrittenFrom?, trail_of_not_running h]
  rfl

/-- What is first to be too long is so for a playback that the run passes. -/
theorem Tracks.exists_unwritten {p : Playback} (h : Tracks program level config p)
    (hline : p.unwrittenFrom? = some line) :
    ∃ q, Tracks program level config q ∧ q.unwritten? = some line := by
  by_cases hrun : p.running = true
  · rw [unwrittenFrom?_of_running hrun] at hline
    rcases Option.or_eq_some_iff.mp hline with hp | ⟨-, hnext⟩
    · exact ⟨p, h, hp⟩
    · exact (tick_tracks h).exists_unwritten hnext
  · rw [unwrittenFrom?_of_not_running (by simpa using hrun)] at hline
    cases hline
termination_by p.remaining
decreasing_by exact remaining_tick_lt hrun

/-- A new playback that runs to its end starts with the first step, if there are blocks. -/
theorem findSome?_runTrail_new (program : Program) (level : Level) (config : Config) :
    (new program level config).runTrail.findSome? unwritten? =
      if program = [] then none else (before program level config 0).unwrittenFrom? := by
  have hnew := new_tracks program level config
  have hres : (new program level config).resume = (new program level config).start :=
    resume_of_not_running rfl
  by_cases hempty : program = []
  · rw [if_pos hempty]
    simp only [runTrail, hres, (start_eq_error_iff hnew).mpr hempty, List.findSome?_nil]
  · rw [if_neg hempty]
    simp only [runTrail, hres, start_eq_before hnew hempty, unwrittenFrom?]

/-- What keeps a line of a run from being written is the size of the board. -/
theorem not_writable_of_runTrail
    (h : (new program level config).runTrail.findSome? unwritten? = some line) :
    ¬line.Writable ∧ ¬level.Writable := by
  rw [findSome?_runTrail_new] at h
  split at h
  · cases h
  · rename_i hne
    have hbefore : Tracks program level config (before program level config 0) :=
      .before 0 hne ready_zero
    obtain ⟨q, hq, hline⟩ := hbefore.exists_unwritten h
    exact hq.not_writable hline

end GridRobot.Playback
