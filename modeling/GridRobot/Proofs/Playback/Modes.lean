import GridRobot.Proofs.Playback.Tick

/-!
# The modes of a playback

A playback may be started, ticked, stopped and run to its end in any order. Whatever was asked of
it, it is in one of three modes, and all that can be observed of it follows from the mode and one
counter. The invariant is `Tracks`: the playback is one of those that a run passes through.
-/

namespace GridRobot

/-- What can be asked of a playback. -/
inductive Operation where
  | start
  | tick
  | stop
  | runToEnd
  deriving DecidableEq, Repr

inductive Mode where
  | idle
  | active (k : Nat)
  | done (k : Nat)
  deriving DecidableEq, Repr

namespace Playback

/-- The playback after an operation. One that is refused leaves it as it was. -/
def operate (p : Playback) : Operation → Playback
  | .start =>
    match p.start with
    | .ok q => q
    | .error _ => p
  | .tick => p.tick.1
  | .stop => p.stop
  | .runToEnd =>
    match p.runToEnd with
    | .ok (q, _) => q
    | .error _ => p

def operateAll (p : Playback) (ops : List Operation) : Playback := ops.foldl operate p

variable (program : Program) (level : Level) (config : Config)

structure Idle (p : Playback) : Prop where
  stepIndex : p.stepIndex = -1
  running : p.running = false
  outcome : p.outcome? = none
  robot : p.robot = .start level

structure Active (p : Playback) (k : Nat) : Prop where
  running : p.running = true
  outcome : p.outcome? = none
  stepIndex : p.stepIndex = k
  robot : p.robot = program.robotAfter level k
  begun : 0 < k → k < program.compile.size ∧ k < config.maxSteps ∧
    (program.robotAfter level k).terminal = false

structure Done (p : Playback) (k : Nat) : Prop where
  running : p.running = false
  stepIndex : p.stepIndex = k
  robot : p.robot = program.robotAfter level k
  ended : p.outcome? ≠ none
  unfinished : ∀ j < k, (program.robotAfter level j).terminal = false
  won_iff : p.outcome? = some .won ↔ (program.robotAfter level k).won = true
  crashed_iff : p.outcome? = some .crashed ↔ (program.robotAfter level k).crashed = true
  exhausted_iff : p.outcome? = some .exhausted ↔
    (program.robotAfter level k).terminal = false ∧ k = program.compile.size
  stepLimit_iff : p.outcome? = some .stepLimit ↔
    (program.robotAfter level k).terminal = false ∧ k < program.compile.size ∧
      k = max config.maxSteps 0

/-- What can be observed of a playback of the program in a mode. -/
def InMode (p : Playback) : Mode → Prop
  | .idle => Idle level p
  | .active k => Active program level config p k
  | .done k => Done program level config p k

/-- The playbacks of the program: those that wait, with any trace, and those of its run. -/
inductive Tracks : Playback → Prop
  | idle (trace : Array Instruction) :
      Tracks ⟨program, level, config, trace, .idle, .start level⟩
  | before (k : Nat) (nonempty : program ≠ []) (ready : Ready program level config k) :
      Tracks (before program level config k)
  | finished (k : Nat) (nonempty : program ≠ []) (ends : program.EndsAfter level config k) :
      Tracks (finished program level config k)

variable {program level config} {p : Playback}

theorem idle_inMode (trace : Array Instruction) :
    InMode program level config ⟨program, level, config, trace, .idle, .start level⟩ .idle :=
  ⟨rfl, rfl, rfl, rfl⟩

theorem before_inMode {k : Nat} (h : Ready program level config k) :
    InMode program level config (before program level config k) (.active k) := by
  refine ⟨rfl, rfl, rfl, rfl, ?_⟩
  intro hk
  have hgo := h hk
  rw [Program.stopsAt_iff, config.limit_le_iff] at hgo
  exact ⟨by omega, by omega, h.running⟩

theorem finished_inMode {k : Nat} (h : program.EndsAfter level config k) :
    InMode program level config (finished program level config k) (.done k) := by
  obtain ⟨hwon, hcrashed, hexhausted, hlimit⟩ := h.outcome
  rw [← Int.natCast_inj, config.coe_limit] at hlimit
  refine ⟨rfl, rfl, rfl, by simp [outcome?, finished], h.running, ?_, ?_, ?_, ?_⟩
  · exact Option.some_inj.trans hwon
  · exact Option.some_inj.trans hcrashed
  · exact Option.some_inj.trans hexhausted
  · exact Option.some_inj.trans hlimit

/-- The step index and whether it runs tell a playback's mode. -/
theorem inMode_unique {m m' : Mode} (h : InMode program level config p m)
    (h' : InMode program level config p m') : m = m' := by
  cases m with
  | idle => cases m' with
    | idle => rfl
    | active k => have := h.running.symm.trans h'.running; contradiction
    | done k => have := h.stepIndex.symm.trans h'.stepIndex; omega
  | active k => cases m' with
    | idle => have := h.running.symm.trans h'.running; contradiction
    | active k' => have := h.stepIndex.symm.trans h'.stepIndex; congr; omega
    | done k' => have := h.running.symm.trans h'.running; contradiction
  | done k => cases m' with
    | idle => have := h.stepIndex.symm.trans h'.stepIndex; omega
    | active k' => have := h.running.symm.trans h'.running; contradiction
    | done k' => have := h.stepIndex.symm.trans h'.stepIndex; congr; omega

theorem Tracks.exists_mode (h : Tracks program level config p) :
    ∃ m, InMode program level config p m := by
  cases h with
  | idle trace => exact ⟨_, idle_inMode trace⟩
  | before k _ hr => exact ⟨_, before_inMode hr⟩
  | finished k _ he => exact ⟨_, finished_inMode he⟩

theorem Tracks.program_eq (h : Tracks program level config p) : p.program = program := by
  cases h <;> rfl

theorem Tracks.config_eq (h : Tracks program level config p) : p.config = config := by
  cases h <;> rfl

theorem Tracks.level_eq (h : Tracks program level config p) : p.level = level := by
  cases h <;> rfl

theorem start_eq_error_iff (h : Tracks program level config p) :
    p.start = .error .emptyProgram ↔ program = [] := by
  simp [start, h.program_eq]

theorem start_eq_before (h : Tracks program level config p) (hne : program ≠ []) :
    p.start = .ok (before program level config 0) := by
  have hstart : p.start = .ok { p with
      trace := p.program.compile, phase := .active 0, robot := .start p.level } := by
    rw [start, if_neg]
    simpa [h.program_eq] using hne
  rw [hstart]
  cases h <;> rfl

theorem resume_of_not_running (h : p.running = false) : p.resume = p.start := by
  simp [resume, h]

theorem stop_tracks (h : Tracks program level config p) : Tracks program level config p.stop := by
  cases h with
  | idle trace => exact .idle trace
  | before k _ _ => exact .idle program.compile
  | finished k _ _ => exact .idle program.compile

theorem stop_inMode (h : Tracks program level config p) :
    InMode program level config p.stop .idle := by
  cases h <;> exact idle_inMode _

theorem tick_tracks (h : Tracks program level config p) : Tracks program level config p.tick.1 := by
  cases h with
  | idle trace => exact .idle trace
  | before k hne hr =>
    rcases tick_cases hr with ⟨-, hnext, htick⟩ | ⟨-, hend, htick⟩ | ⟨hend, htick⟩
    · rw [htick]; exact .before _ hne hnext
    · rw [htick]; exact .finished _ hne hend
    · rw [htick]; exact .finished _ hne hend
  | finished k hne he => exact .finished k hne he

/-- What is run to its end goes on in front of its next step if it is running, and in front of the
first step otherwise. From there on only the counter matters. -/
theorem resume_eq_before (h : Tracks program level config p) (hne : program ≠ []) :
    ∃ k : Nat, Ready program level config k ∧ p.resume = .ok (before program level config k) ∧
      (k : Int) = if p.running then p.stepIndex else 0 := by
  have hstart := start_eq_before h hne
  cases h with
  | idle trace => exact ⟨0, ready_zero, (resume_of_not_running rfl).trans hstart, rfl⟩
  | before k _ hr => exact ⟨k, hr, rfl, rfl⟩
  | finished k _ he => exact ⟨0, ready_zero, (resume_of_not_running rfl).trans hstart, rfl⟩

/-- A run to the end starts whatever is not running, and ends where the run `Ends`. -/
theorem runToEnd_eq_finished (h : Tracks program level config p) (hne : program ≠ []) :
    ∃ k n, program.EndsAfter level config k ∧
      p.runToEnd = .ok (finished program level config k, n) := by
  obtain ⟨k, hr, hres, -⟩ := resume_eq_before h hne
  obtain ⟨k', -, he, hd⟩ := drain_before hr 0
  exact ⟨k', _, he, by rw [runToEnd, hres, ← hd]; rfl⟩

/-- Without blocks nothing ever runs, so a run to the end tries to start and is refused. -/
theorem runToEnd_empty (h : Tracks program level config p) (he : program = []) :
    p.runToEnd = .error .emptyProgram := by
  have hstart := (start_eq_error_iff h).mpr he
  have hidle : p.running = false := by
    cases h with
    | idle trace => rfl
    | before k hne _ => exact absurd he hne
    | finished k _ _ => rfl
  rw [runToEnd, resume_of_not_running hidle, hstart]
  rfl

theorem operate_tracks (op : Operation) (h : Tracks program level config p) :
    Tracks program level config (p.operate op) := by
  cases op with
  | start =>
    by_cases hne : program = []
    · simpa only [operate, (start_eq_error_iff h).mpr hne] using h
    · simpa only [operate, start_eq_before h hne] using .before 0 hne ready_zero
  | tick => exact tick_tracks h
  | stop => exact stop_tracks h
  | runToEnd =>
    by_cases hne : program = []
    · simpa only [operate, runToEnd_empty h hne] using h
    · obtain ⟨k, n, he, hrun⟩ := runToEnd_eq_finished h hne
      simpa only [operate, hrun] using .finished k hne he

theorem operateAll_tracks (ops : List Operation) (h : Tracks program level config p) :
    Tracks program level config (p.operateAll ops) := by
  induction ops generalizing p with
  | nil => exact h
  | cons op ops ih => exact ih (operate_tracks op h)

theorem new_tracks (program : Program) (level : Level) (config : Config) :
    Tracks program level config (new program level config) := .idle #[]

theorem tick_of_not_running (h : p.running = false) : p.tick = (p, none) := by
  unfold running at h
  unfold tick
  cases hp : p.phase <;> simp_all

theorem Tracks.eq_before {k : Nat} (h : Tracks program level config p)
    (ha : InMode program level config p (.active k)) :
    p = Playback.before program level config k ∧ Ready program level config k := by
  cases h with
  | idle trace => have := inMode_unique ha (idle_inMode trace); contradiction
  | before k' _ hr =>
    obtain ⟨⟩ := inMode_unique ha (before_inMode hr)
    exact ⟨rfl, hr⟩
  | finished k' _ he => have := inMode_unique ha (finished_inMode he); contradiction

/-- A tick of a running playback moves the counter by one, or ends the run where it is. -/
theorem tick_of_active {k : Nat} (h : Tracks program level config p)
    (ha : InMode program level config p (.active k)) :
    (p.tick.2 = some (program.robotAfter level (k + 1)) ∧
      (InMode program level config p.tick.1 (.active (k + 1)) ∨
        InMode program level config p.tick.1 (.done (k + 1)))) ∨
    (p.tick.2 = none ∧ InMode program level config p.tick.1 (.done k)) := by
  obtain ⟨rfl, hr⟩ := h.eq_before ha
  rcases tick_cases hr with ⟨-, hnext, htick⟩ | ⟨-, hend, htick⟩ | ⟨hend, htick⟩
  · rw [htick]; exact .inl ⟨rfl, .inl (before_inMode hnext)⟩
  · rw [htick]; exact .inl ⟨rfl, .inr (finished_inMode hend)⟩
  · rw [htick]; exact .inr ⟨rfl, finished_inMode hend⟩

/-- After any operations in any order a playback is in exactly one mode. From there a start leads to
the first step and a stop to the idle mode, a tick does nothing unless the playback runs, and a run
to the end leads to a mode in which it has ended; only an empty program is refused. -/
theorem operateAll_mode (program : Program) (level : Level) (config : Config)
    (ops : List Operation) :
    let p := (new program level config).operateAll ops
    let Is := InMode program level config
    (∃! m, Is p m) ∧
    (p.start = .error .emptyProgram ↔ program = []) ∧
    (program = [] → p.operate .start = p) ∧
    (program ≠ [] → ∃ q, p.start = .ok q ∧ Is q (.active 0)) ∧
    Is p.stop .idle ∧
    (∀ k, Is p .idle ∨ Is p (.done k) → p.tick = (p, none)) ∧
    (∀ k, Is p (.active k) →
      (p.tick.2 = some (program.robotAfter level (k + 1)) ∧
        (Is p.tick.1 (.active (k + 1)) ∨ Is p.tick.1 (.done (k + 1)))) ∨
      (p.tick.2 = none ∧ Is p.tick.1 (.done k))) ∧
    (program = [] → p.runToEnd = .error .emptyProgram ∧ p.operate .runToEnd = p) ∧
    (program ≠ [] → ∃ k q n, p.runToEnd = .ok (q, n) ∧ Is q (.done k)) := by
  intro p Is
  have ht : Tracks program level config p := operateAll_tracks ops (new_tracks program level config)
  obtain ⟨m, hm⟩ := ht.exists_mode
  refine ⟨⟨m, hm, fun m' hm' => inMode_unique hm' hm⟩, start_eq_error_iff ht, ?_, ?_, ?_, ?_,
    fun k => tick_of_active ht, ?_, ?_⟩
  · intro he
    simp only [operate, (start_eq_error_iff ht).mpr he]
  · intro hne
    exact ⟨_, start_eq_before ht hne, before_inMode ready_zero⟩
  · exact stop_inMode ht
  · rintro k (hi | hd)
    · exact tick_of_not_running hi.running
    · exact tick_of_not_running hd.running
  · intro he
    exact ⟨runToEnd_empty ht he, by simp only [operate, runToEnd_empty ht he]⟩
  · intro hne
    obtain ⟨k, n, he, hrun⟩ := runToEnd_eq_finished ht hne
    exact ⟨k, _, n, hrun, finished_inMode he⟩

end Playback

end GridRobot
