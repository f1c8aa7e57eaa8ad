import Mathlib.Data.Finset.Card
import GridRobot.Execution
import GridRobot.Proofs.Playback.Modes

/-!
# What an execution records

An execution is driven by a loop of its own, which looks at the next instruction before each tick
and leaves off when nothing has run. It comes to the same end as a playback that runs to its end,
and it records the steps up to there and no others.
-/

namespace GridRobot

/-- The first `k` steps of a program, each with its number and the robot after it. -/
def Program.recorded (program : Program) (level : Level) (k : Nat) : List RecordedStep :=
  (program.compile.toList.take k).mapIdx fun n i => ⟨n, i, program.robotAfter level (n + 1)⟩

namespace Program

variable {program : Program} {level : Level} {k : Nat}

theorem recorded_succ {i : Instruction} (h : program.compile[k]? = some i) :
    program.recorded level (k + 1) =
      program.recorded level k ++ [⟨k, i, program.robotAfter level (k + 1)⟩] := by
  have hlen : k < program.compile.size := (Array.getElem?_eq_some_iff.mp h).1
  have htake : (program.compile.toList.take k).length = k := by simp; omega
  rw [← Array.getElem?_toList] at h
  rw [recorded, List.take_add_one, h, Option.toList_some, List.mapIdx_append, htake]
  simp [recorded]

theorem length_recorded (h : k ≤ program.compile.size) : (program.recorded level k).length = k := by
  simp [recorded, h]

theorem take_recorded (program : Program) (level : Level) (j k : Nat) :
    (program.recorded level k).take j = program.recorded level (min j k) := by
  apply List.ext_getElem?
  intro i
  by_cases hj : i < j
  · by_cases hk : i < k <;> simp [recorded, hj, hk]
  · simp [recorded, hj]

/-- The record of the first steps depends on a level only through the robot after each of them. -/
theorem recorded_congr {m : Level}
    (h : ∀ j ≤ k, program.robotAfter level j = program.robotAfter m j) :
    program.recorded level k = program.recorded m k := by
  rw [recorded, recorded, List.mapIdx_eq_mapIdx_iff]
  intro n hn
  rw [List.length_take] at hn
  rw [h (n + 1) (by omega)]

theorem getElem?_recorded {j : Nat} (hj : j < k) {i : Instruction}
    (hi : program.compile[j]? = some i) :
    (program.recorded level k)[j]? = some ⟨j, i, program.robotAfter level (j + 1)⟩ := by
  rw [← Array.getElem?_toList] at hi
  simp [recorded, hj, hi]

end Program

namespace Playback

variable {program : Program} {level : Level} {config : Config}

theorem record_of_some {p : Playback} {i : Instruction} {r : Robot} (hi : p.next? = some i)
    (hr : p.tick.2 = some r) (count : Nat) (steps : List RecordedStep) :
    p.record count steps = p.tick.1.record (count + 1) (⟨count, i, r⟩ :: steps) := by
  rw [record]
  split <;> simp_all

/-- The loop leaves off at a tick that runs nothing. -/
theorem record_of_none {p : Playback} (hr : p.tick.2 = none) (count : Nat)
    (steps : List RecordedStep) : p.record count steps = (p.tick.1, steps) := by
  rw [record]
  split <;> simp_all

theorem record_finished (k count : Nat) (steps : List RecordedStep) :
    (finished program level config k).record count steps =
      (finished program level config k, steps) :=
  record_of_none rfl count steps

/-- The recording loop reaches the end of the run, and its record grows with the counter. -/
theorem record_before {k : Nat} (h : Ready program level config k) :
    ∃ k', program.EndsAfter level config k' ∧
      (before program level config k).record k (program.recorded level k).reverse =
        (finished program level config k', (program.recorded level k').reverse) := by
  -- Whatever a performed step leads to, the record grows by that step.
  have hstep {q : Playback} (hgo : ¬program.StopsAt level config k)
      (htick : (before program level config k).tick =
        (q, some (program.robotAfter level (k + 1)))) :
      (before program level config k).record k (program.recorded level k).reverse =
        q.record (k + 1) (program.recorded level (k + 1)).reverse := by
    have hi := Array.getElem?_eq_getElem (lt_size_of_not_stopsAt hgo)
    have hnext : (before program level config k).next? = _ := hi
    rw [record_of_some hnext (congrArg Prod.snd htick), htick, Program.recorded_succ hi,
      List.reverse_concat]
  rcases tick_cases h with ⟨hgo, hnext, htick⟩ | ⟨hgo, hend, htick⟩ | ⟨hend, htick⟩
  · have hlt := lt_size_of_not_stopsAt hgo
    rw [hstep hgo htick]
    exact record_before hnext
  · exact ⟨k + 1, hend, by rw [hstep hgo htick, record_finished]⟩
  · exact ⟨k, hend, by rw [record_of_none (congrArg Prod.snd htick), htick]⟩
termination_by program.compile.size - k

end Playback

namespace Program

variable {program : Program} {level : Level} {config : Config}

/-- All that an execution gives: the recorded steps up to the end of the run, and what can be read
off the end. -/
def executionAfter (program : Program) (level : Level) (k : Nat) : Execution where
  initial := .start level
  steps := program.recorded level k
  final := program.robotAfter level k
  stats :=
    { blockCount := program.length
      traceLength := program.compile.size
      steps := k
      coinsCollected := (program.robotAfter level k).coins.length
      outcome := some (.of (program.robotAfter level k) k program.compile.size) }

theorem executionAfter_congr {m : Level} {k : Nat}
    (h : ∀ j ≤ k, program.robotAfter level j = program.robotAfter m j) :
    program.executionAfter level k = program.executionAfter m k := by
  have hstart : Robot.start level = Robot.start m := h 0 (Nat.zero_le k)
  rw [executionAfter, executionAfter, hstart, recorded_congr h, h k (Nat.le_refl k)]

theorem execute_of_empty (level : Level) (config : Config) (he : program = []) :
    program.execute level config = .error .emptyProgram := by
  have hstart := (Playback.start_eq_error_iff (Playback.new_tracks program level config)).mpr he
  simp only [execute, hstart, bind, Except.bind]

theorem execute_eq (level : Level) (config : Config) (hne : program ≠ []) :
    ∃ k, program.EndsAfter level config k ∧
      program.execute level config = .ok (program.executionAfter level k) := by
  have hready : Playback.Ready program level config 0 := Playback.ready_zero
  obtain ⟨k, hend, hrec⟩ := Playback.record_before hready
  have hstart := Playback.start_eq_before (Playback.new_tracks program level config) hne
  refine ⟨k, hend, ?_⟩
  have hlen : (program.recorded level k).length = k := by
    have hle := hend.le_length
    rw [Array.length_toList] at hle
    exact length_recorded hle
  have hrec0 : (Playback.before program level config 0).record 0 [] = _ := hrec
  simp only [execute, hstart, bind, Except.bind, hrec0, pure, Except.pure, executionAfter,
    List.reverse_reverse, List.length_reverse, hlen]
  rfl

/-- The execution of a program, given where a run of it ends. -/
theorem execute_eq_executionAfter {k : Nat} (hne : program ≠ [])
    (hend : program.EndsAfter level config k) :
    program.execute level config = .ok (program.executionAfter level k) := by
  obtain ⟨k', hend', hexec⟩ := execute_eq level config hne
  obtain rfl : k' = k := Ends.unique hend' hend
  exact hexec

/-- What is executed is run to its end. -/
theorem exists_executionAfter {e : Execution} (h : program.execute level config = .ok e) :
    ∃ k, program.EndsAfter level config k ∧ e = program.executionAfter level k := by
  have hne : program ≠ [] := by
    intro he
    rw [execute_of_empty level config he] at h
    cases h
  obtain ⟨k, hend, hexec⟩ := execute_eq level config hne
  exact ⟨k, hend, Except.ok.inj (h.symm.trans hexec)⟩

/-- The recording execution, the playback that runs to its end and the plain fold of steps agree.
With `k` the first moment at which the robot has crashed or won or no further step is left or
allowed, exactly the first `k` steps are recorded and everything else is what is there after them,
whatever the delay and whether or not the playback prints. -/
theorem execute_eq_fold (program : Program) (level : Level) (config : Config) :
    let last := min program.compile.size config.maxSteps.toNat
    (program = [] → program.execute level config = .error .emptyProgram ∧ ∀ delay verbose,
      (Playback.new program level { config with delay, verbose }).runToEnd =
        .error .emptyProgram) ∧
    (program ≠ [] → ∃ k e o,
      IsLeast {j | j ≤ last ∧ ((program.robotAfter level j).terminal = true ∨ j = last)} k ∧
      program.execute level config = .ok e ∧
      e.initial = .start level ∧
      e.steps.length = k ∧
      (∀ j < k, ∃ i, program.compile[j]? = some i ∧
        e.steps[j]? = some ⟨j, i, program.robotAfter level (j + 1)⟩) ∧
      e.final = program.robotAfter level k ∧
      e.stats =
        { blockCount := program.length
          traceLength := program.compile.size
          steps := k
          coinsCollected := (program.robotAfter level k).coins.toFinset.card
          outcome := some o } ∧
      (o = .won ↔ (program.robotAfter level k).won = true) ∧
      (o = .crashed ↔ (program.robotAfter level k).crashed = true) ∧
      (o = .exhausted ↔
        (program.robotAfter level k).terminal = false ∧ k = program.compile.size) ∧
      (o = .stepLimit ↔
        (program.robotAfter level k).terminal = false ∧ k < program.compile.size) ∧
      ∀ delay verbose, ∃ p n,
        (Playback.new program level { config with delay, verbose }).runToEnd = .ok (p, n) ∧
        p.robot = e.final ∧ p.outcome? = some o ∧ p.stepIndex = k) := by
  intro last
  constructor
  · intro he
    have hstart := (Playback.start_eq_error_iff (Playback.new_tracks program level config)).mpr he
    refine ⟨by simp [execute, hstart, bind, Except.bind], ?_⟩
    intro delay verbose
    exact Playback.runToEnd_empty (Playback.new_tracks program level _) he
  · intro hne
    obtain ⟨k, hend, hexec⟩ := execute_eq level config hne
    have hlen := hend.le_length
    have hleast := hend.isLeast
    rw [Array.length_toList] at hlen hleast
    have hsafe : (program.robotAfter level k).Safe level :=
      Robot.run_safe_of_safe _ (Robot.start_safe level)
    obtain ⟨hwon, hcrashed, hexhausted, -⟩ := hend.outcome
    refine ⟨k, _, _, hleast, hexec, rfl, length_recorded hlen, ?_, rfl, ?_, hwon, hcrashed,
      hexhausted, Outcome.of_eq_stepLimit_iff, ?_⟩
    · intro j hj
      have hi := Array.getElem?_eq_getElem (show j < program.compile.size by omega)
      exact ⟨_, hi, getElem?_recorded hj hi⟩
    · rw [List.toFinset_card_of_nodup hsafe.nodup]
      rfl
    · intro delay verbose
      obtain ⟨k', n, hend', hrun⟩ :=
        Playback.runToEnd_eq_finished
          (Playback.new_tracks program level { config with delay, verbose }) hne
      obtain rfl : k' = k := Ends.unique hend' hend
      exact ⟨_, n, hrun, rfl, rfl, rfl⟩

end Program

end GridRobot
