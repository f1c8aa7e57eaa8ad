import GridRobot.Campaign.Levels
import GridRobot.Proofs.Block.Leaves
import GridRobot.Proofs.Execution.Recorded
import GridRobot.Proofs.Palette.Walk

/-!
# What a palette's check covers

The check goes through the blocks of a program and never compiles it, and the compiler never looks
at a palette. Still all instructions of the trace are among the blocks that have been checked, and
if no loop runs zero times the check goes through no others. So a program that passes never performs
an instruction that the level does not offer.
-/

namespace GridRobot.Program

open Block

variable {p : Program} {l : Level} {i : Instruction}

theorem mem_compile_iff : i ∈ p.compile ↔ ∃ x ∈ leavesAll p, x.Live ∧ x.instruction = i := by
  rw [← Array.mem_toList_iff, compile_toList, mem_expandAll_iff]

theorem exists_at?_basic_iff :
    (∃ a, at? p a = some (.basic i)) ↔ ∃ x ∈ leavesAll p, x.instruction = i := by
  rw [← mem_preorderAll_iff, basic_mem_preorderAll_iff]

theorem exists_at?_of_mem_compile (h : i ∈ p.compile) : ∃ a, at? p a = some (.basic i) := by
  obtain ⟨x, hx, -, hi⟩ := mem_compile_iff.mp h
  exact exists_at?_basic_iff.mpr ⟨x, hx, hi⟩

/-- Without a loop that runs zero times every leaf is live. -/
theorem live_of_positive (h : ∀ a n body, at? p a = some (.loop n body) → 0 < n.val) {x : Leaf}
    (hx : x ∈ leavesAll p) : x.Live := by
  intro hzero
  obtain ⟨n, body, hloop, hn⟩ := exists_loop_of_leafAll hzero p hx
  obtain ⟨a, ha⟩ := mem_preorderAll_iff.mp hloop
  have := h a n body ha
  omega

theorem mem_compile_of_at? (h : ∀ a n body, at? p a = some (.loop n body) → 0 < n.val)
    {a : List Nat} (ha : at? p a = some (.basic i)) : i ∈ p.compile := by
  obtain ⟨x, hx, hi⟩ := exists_at?_basic_iff.mp ⟨a, ha⟩
  exact mem_compile_iff.mpr ⟨x, hx, live_of_positive h hx, hi⟩

theorem instruction_mem_compile {k : Nat} {s : RecordedStep} (h : s ∈ p.recorded l k) :
    s.instruction ∈ p.compile := by
  obtain ⟨n, hn, rfl⟩ := List.mem_mapIdx.mp h
  exact Array.mem_toList_iff.mp (List.mem_of_mem_take (List.getElem_mem hn))

/-- A program that passes the check of a palette compiles to instructions that the level offers. It
runs without any other under every configuration, and the run counts no more blocks than the level
allows. Conversely, where no loop runs zero times, where loops are offered or there are none, and
where there are not too many blocks, a program passes if its trace has only such instructions. -/
theorem checkPalette_covers (p : Program) (l : Level) :
    (p.checkPalette l = .ok () →
      (∀ i ∈ p.compile, .basic i ∈ l.palette) ∧
      ∀ config, p ≠ [] → ∃ e, p.execute l config = .ok e ∧
        (∀ s ∈ e.steps, .basic s.instruction ∈ l.palette) ∧
        ∀ m, l.maxBlocks = some m → e.stats.blockCount ≤ m) ∧
    ((∀ a n body, at? p a = some (.loop n body) → 0 < n.val) →
      (.loop ∈ l.palette ∨ ∀ a n body, at? p a ≠ some (.loop n body)) →
      p.Fits l →
      (p.checkPalette l = .ok () ↔ ∀ i ∈ p.compile, .basic i ∈ l.palette)) := by
  have hsound (hok : p.checkPalette l = .ok ()) : ∀ i ∈ p.compile, .basic i ∈ l.palette := by
    intro i hi
    obtain ⟨a, ha⟩ := exists_at?_of_mem_compile hi
    exact (checkPalette_eq_ok_iff.mp hok).2 a _ ha
  constructor
  · intro hok
    refine ⟨hsound hok, ?_⟩
    intro config hne
    obtain ⟨k, -, hexec⟩ := execute_eq l config hne
    refine ⟨_, hexec, ?_, (checkPalette_eq_ok_iff.mp hok).1⟩
    intro s hs
    exact hsound hok _ (instruction_mem_compile hs)
  · intro hpositive hloops hfits
    refine ⟨hsound, ?_⟩
    intro hall
    refine checkPalette_eq_ok_iff.mpr ⟨hfits, ?_⟩
    intro a b hb
    cases b with
    | basic i => exact hall i (mem_compile_of_at? hpositive hb)
    | loop n body =>
      rcases hloops with hloop | hnone
      · exact hloop
      · exact absurd hb (hnone a n body)

/-- What is in a loop that runs zero times is checked all the same, although it is in no trace. -/
example :
    let program : Program := [.loop 0 [.basic .turnLeft]]
    program.compile = #[] ∧ program.checkPalette Campaign.loopLogic =
      .error (.unavailable (.basic .turnLeft) "Loop Logic") := by decide +kernel

end GridRobot.Program
