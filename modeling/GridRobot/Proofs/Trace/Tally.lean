import Mathlib.Data.List.Basic
import GridRobot.Proofs.Block.Leaves
import GridRobot.Trace.Listing

/-!
# Tallies and leaves

A tally has an entry for each instruction of a trace, in the order of first appearance. For the
trace of a program all of it can be read off the leaves, without running through any loop.
-/

namespace GridRobot

namespace Tally

/-- Bumping an instruction that has no entry yet counts it from zero. -/
theorem bump_map (i : Instruction) {keys : List Instruction} {f : Instruction → Nat}
    (hkeys : keys.Nodup) (hf : i ∉ keys → f i = 0) :
    bump i (keys.map fun j => (j, f j)) =
      (if i ∈ keys then keys else keys ++ [i]).map fun j => (j, f j + if j = i then 1 else 0) := by
  induction keys with
  | nil => simp [bump, hf]
  | cons k keys ih =>
    obtain ⟨hk, hkeys⟩ := List.nodup_cons.mp hkeys
    by_cases h : i = k
    · subst h
      have hrest : ∀ j ∈ keys, j ≠ i := fun j hj he => hk (he ▸ hj)
      simp +contextual [bump, hrest]
    · have hrest := ih hkeys fun hi => hf (by simp [h, hi])
      rw [List.map_cons, bump, if_neg h, hrest]
      by_cases hi : i ∈ keys <;> simp [h, hi, Ne.symm h]

end Tally

/-- A tally counts each instruction of the trace where it appears first. -/
theorem tally_eq (trace : List Instruction) :
    tally trace = trace.eraseDups.map fun i => (i, trace.count i) := by
  induction trace using List.reverseRecOn with
  | nil => rfl
  | append_singleton trace i ih =>
    have hnew : i ∉ trace.eraseDups → trace.count i = 0 := by
      simpa using List.count_eq_zero_of_not_mem
    have hstep : tally (trace ++ [i]) = Tally.bump i (tally trace) := by simp [tally]
    rw [hstep, ih, Tally.bump_map i (Firsts.nodup_eraseDups trace) hnew, Firsts.eraseDups_concat]
    simp only [List.mem_eraseDups]
    refine List.map_congr_left ?_
    intro j _
    rw [List.count_append, List.count_singleton]
    by_cases h : j = i
    · simp [h]
    · simp [h, Ne.symm h]

theorem lookup_tally (trace : List Instruction) (i : Instruction) :
    (tally trace).lookup i = if 0 < trace.count i then some (trace.count i) else none := by
  rw [tally_eq]
  by_cases h : i ∈ trace
  · rw [List.lookup_graph _ (List.mem_eraseDups.mpr h), if_pos (List.count_pos_iff.mpr h)]
  · rw [if_neg (mt List.count_pos_iff.mp h), List.lookup_eq_none_iff]
    intro entry hentry
    obtain ⟨j, hj, rfl⟩ := List.mem_map.mp hentry
    refine bne_iff_ne.mpr ?_
    rintro rfl
    exact h (List.mem_eraseDups.mp hj)

namespace Program

/-- How often an instruction comes in the trace is told by the leaves that have it: each comes as
often as the counts of the loops around it say when they are multiplied. An instruction has an entry
in the tally if this is not zero, and the entries stand in the order in which the instructions come
first among the leaves with no loop around them that runs zero times. Together they count the whole
trace. A source that is accepted has the tally of its program. -/
theorem tally_compile (p : Program) :
    let counts := tally p.compile.toList
    let occurrences (i : Instruction) := Block.occurrences i (Block.leavesAll p)
    (∀ i, counts.lookup i = if 0 < occurrences i then some (occurrences i) else none) ∧
    (∀ i, i ∈ counts.map Prod.fst ↔ 0 < occurrences i) ∧
    (counts.map Prod.fst).Nodup ∧
    counts.map Prod.fst = (Block.liveInstructions (Block.leavesAll p)).eraseDups ∧
    (counts.map Prod.snd).sum = p.compile.size ∧
    ∀ source, parse source = .ok p → tallySource source = .ok counts := by
  intro counts occurrences
  have hcount (i : Instruction) : p.compile.toList.count i = occurrences i := by
    rw [p.compile_toList, Block.count_expandAll]
  have hkeys : counts.map Prod.fst = p.compile.toList.eraseDups := by
    simp [counts, tally_eq, Function.comp_def]
  refine ⟨?_, ?_, ?_, ?_, ?_, ?_⟩
  · intro i
    rw [← hcount]
    exact lookup_tally _ i
  · intro i
    rw [hkeys, List.mem_eraseDups, ← hcount, List.count_pos_iff]
  · rw [hkeys]
    exact Firsts.nodup_eraseDups _
  · rw [hkeys, p.compile_toList, Block.eraseDups_expandAll]
  · have hvalues : counts.map Prod.snd = p.compile.toList.eraseDups.map p.compile.toList.count := by
      simp [counts, tally_eq, Function.comp_def]
    rw [hvalues, Firsts.sum_count_eraseDups, Array.length_toList]
  · intro source h
    rw [tallySource, compileSource, h]
    rfl

/-- A loop that runs zero times does not bring its instructions forward. -/
example :
    let program : Program :=
      [.loop 0 [.basic .turnLeft], .loop 2 [.loop 3 [.basic .move], .basic .turnLeft]]
    tally program.compile.toList = [(.move, 6), (.turnLeft, 2)] := by decide +kernel

end Program

end GridRobot
