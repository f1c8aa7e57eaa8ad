import GridRobot.Campaign.Levels
import GridRobot.Proofs.Playback.Modes

/-!
# The next instruction

A playback that runs names the instruction at its index as the next one, and a tick performs an
instruction only within the step limit. In front of a step that a run has reached the limit leaves
room for it, so both agree. They disagree where nothing has been checked yet: right behind a start,
when the limit allows no step at all.
-/

namespace GridRobot.Playback

variable {program : Program} {level : Level} {config : Config} {p : Playback} {k : Nat}

/-- In front of a step that nothing stops, the next instruction is the one that a tick performs. -/
theorem exists_next?_of_not_stopsAt (h : ¬program.StopsAt level config k) :
    ∃ i, (before program level config k).next? = some i ∧
      (before program level config k).tick.2 =
        some ((program.robotAfter level k).step level i) := by
  have hi := Array.getElem?_eq_getElem (lt_size_of_not_stopsAt h)
  refine ⟨_, hi, ?_⟩
  rw [tick_of_not_stopsAt h, robotAfter_succ hi]

/-- A started playback has a step to stop at only in front of the first one, for lack of a trace or
of a limit that allows it. -/
theorem Ready.stopsAt_iff (h : Ready program level config k) :
    program.StopsAt level config k ↔
      k = 0 ∧ (program.compile.size = 0 ∨ config.maxSteps ≤ 0) := by
  have hlimit : config.limit ≤ 0 ↔ config.maxSteps ≤ 0 := by simpa using config.limit_le_iff 0
  constructor
  · intro hstop
    obtain rfl : k = 0 := Nat.eq_zero_of_not_pos fun hk => h hk hstop
    rw [Program.stopsAt_iff, h.running, hlimit, Nat.le_zero] at hstop
    exact ⟨rfl, hstop.resolve_left (by decide)⟩
  · rintro ⟨rfl, hstop⟩
    rw [Program.stopsAt_iff, hlimit, Nat.le_zero]
    exact .inr hstop

/-- Right behind a start, under a limit that allows no step, with an instruction to look at. -/
def Stalled (p : Playback) : Prop :=
  p.running = true ∧ p.config.maxSteps ≤ 0 ∧ p.program.compile ≠ #[]

theorem Tracks.next?_of_not_stalled (h : Tracks program level config p) (hgo : ¬p.Stalled) :
    (p.next? = none ∧ p.tick.2 = none) ∨
    ∃ i, p.next? = some i ∧ p.tick.2 = some (p.robot.step level i) := by
  cases h with
  | idle trace => exact .inl ⟨rfl, rfl⟩
  | finished k _ _ => exact .inl ⟨rfl, rfl⟩
  | before k _ hready =>
    by_cases hstop : program.StopsAt level config k
    · obtain ⟨rfl, hnothing⟩ := hready.stopsAt_iff.mp hstop
      -- The limit stops nothing that is not there.
      have hempty : program.compile = #[] := by
        rcases hnothing with hsize | hlimit
        · exact Array.size_eq_zero_iff.mp hsize
        · by_contra hne
          exact hgo ⟨rfl, hlimit, hne⟩
      refine .inl ⟨?_, by rw [tick_of_stopsAt hready.running hstop]⟩
      show program.compile[0]? = none
      simp [hempty]
    · exact .inr (exists_next?_of_not_stopsAt hstop)

theorem Tracks.eq_before_of_stalled (h : Tracks program level config p) (hstalled : p.Stalled) :
    p = Playback.before program level config 0 := by
  obtain ⟨hrunning, hlimit, -⟩ := hstalled
  cases h with
  | idle trace => exact (Bool.false_ne_true hrunning).elim
  | finished k _ _ => exact (Bool.false_ne_true hrunning).elim
  | before k _ hready =>
    have hstop : program.StopsAt level config k := by
      rw [Program.stopsAt_iff, config.limit_le_iff]
      have : config.maxSteps ≤ 0 := hlimit
      omega
    obtain ⟨rfl, -⟩ := hready.stopsAt_iff.mp hstop
    rfl

/-- After any operations, unless the playback has just been started under a limit that allows no
step, there is a next instruction exactly if a tick performs one, and it is the one that the tick
performs. In the case left out there is a next instruction, the first of the trace, but the tick
performs nothing and ends the run at the limit. -/
theorem next?_operateAll (program : Program) (level : Level) (config : Config)
    (ops : List Operation) :
    let p := (new program level config).operateAll ops
    (¬p.Stalled → (p.next? ≠ none ↔ p.tick.2 ≠ none) ∧
      ∀ i, p.next? = some i → p.tick.2 = some (p.robot.step level i)) ∧
    (p.Stalled → p.stepIndex = 0 ∧ p.robot = .start level ∧ p.next? = program.compile[0]? ∧
      p.next? ≠ none ∧ p.tick.2 = none ∧ p.tick.1.outcome? = some .stepLimit) := by
  intro p
  have htracks : Tracks program level config p :=
    operateAll_tracks ops (new_tracks program level config)
  constructor
  · intro hgo
    rcases htracks.next?_of_not_stalled hgo with ⟨hnext, htick⟩ | ⟨i, hnext, htick⟩
    · simp [hnext, htick]
    · simp [hnext, htick]
  · intro hstalled
    have hp : p = before program level config 0 := htracks.eq_before_of_stalled hstalled
    rw [hp] at hstalled ⊢
    obtain ⟨-, hlimit, hne⟩ : _ ∧ config.maxSteps ≤ 0 ∧ program.compile ≠ #[] := hstalled
    have hsize : 0 < program.compile.size := Array.size_pos_iff.mpr hne
    have hstop : program.StopsAt level config 0 :=
      ready_zero.stopsAt_iff.mpr ⟨rfl, .inr hlimit⟩
    have hready : Ready program level config 0 := ready_zero
    have ho : Outcome.of (program.robotAfter level 0) 0 program.compile.size = .stepLimit :=
      Outcome.of_eq_stepLimit_iff.mpr ⟨hready.running, hsize⟩
    rw [tick_of_stopsAt hready.running hstop]
    refine ⟨rfl, rfl, rfl, ?_, rfl, congrArg some ho⟩
    show program.compile[0]? ≠ none
    simpa using hne

/-- Under a limit of zero the next instruction is a move right behind the start, and the tick does
not perform it. -/
theorem exists_next?_not_performed :
    let p := (new [.basic .move] Campaign.initiation { maxSteps := 0 }).operateAll [.start]
    p.next? = some .move ∧ p.tick.2 = none := by
  decide +kernel

end GridRobot.Playback
