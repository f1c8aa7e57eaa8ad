import GridRobot.Proofs.Lookup.Compile

/-!
# Compiling pass by pass

The loop that compiles a program keeps the lists that are open on a stack, and each of its passes
does one thing to the list on top. What the whole stack will come to is the same after each pass,
and the work that is left is less by one. So the loop ends after a number of passes that can be
told beforehand, with what the program is by recursion on its blocks.
-/

namespace GridRobot.Lookup.OpenList

/-- The stack and the result after some passes of the loop. -/
def passes : Nat → List OpenList → List Block → Except Misuse (List OpenList × List Block)
  | 0, stack, done => .ok (stack, done)
  | n + 1, stack, done => do
    let (stack, done) ← advance stack done
    passes n stack done

/-- What the lists below make of a list that will have given `own` when it is closed: each takes
what it is given as often as it is to, and adds what is still to come of itself. -/
def unwind (own : List Block) (count : Nat) : List OpenList → List Block
  | [] => own
  | f :: below =>
    unwind (f.output ++ (List.replicate count own).flatten ++
      (Block.expandAll f.rest).map .basic) f.count below

/-- What a stack comes to: the result, once no list is open. -/
def total : List OpenList → List Block → List Block
  | [], done => done
  | f :: below, _ => unwind (f.output ++ (Block.expandAll f.rest).map .basic) f.count below

/-- A pass with a list to look at takes one from the work and nothing from the total. -/
theorem exists_advance {stack : List OpenList} (done : List Block) (h : stack ≠ []) :
    ∃ stack' done', advance stack done = .ok (stack', done') ∧
      work stack' + 1 = work stack ∧ total stack' done' = total stack done := by
  cases stack with
  | nil => exact absurd rfl h
  | cons f below =>
    obtain ⟨rest, output, count⟩ := f
    cases rest with
    | nil =>
      -- The list on top is closed: it is the result, or the one below takes it.
      cases below with
      | nil => exact ⟨[], output, rfl, rfl, by simp [total, unwind, Block.expandAll]⟩
      | cons g others =>
        refine ⟨g.extend ⟨[], output, count⟩ :: others, done, rfl, ?_, ?_⟩
        · simp only [work, extend, Block.workAll]
          omega
        · simp [total, unwind, extend, Block.expandAll]
    | cons b rest =>
      cases b with
      | basic i =>
        refine ⟨⟨rest, output ++ [.basic i], count⟩ :: below, done, rfl, ?_, ?_⟩
        · simp only [work, Block.workAll, Block.work]
          omega
        · simp [total, Block.expandAll, Block.expand]
      | loop n body =>
        refine ⟨⟨body, [], n⟩ :: ⟨rest, output, count⟩ :: below, done, rfl, ?_, ?_⟩
        · simp only [work, Block.workAll, Block.work]
          omega
        · simp [total, unwind, Block.expandAll, Block.expand, List.map_flatten]

/-- As long as there is work left, the loop goes on and the total stays the same. -/
theorem exists_passes {n : Nat} {stack : List OpenList} (done : List Block) (h : n ≤ work stack) :
    ∃ stack' done', passes n stack done = .ok (stack', done') ∧
      work stack' + n = work stack ∧ total stack' done' = total stack done := by
  -- The first pass leaves another stack, and the passes that follow start from that one.
  induction n generalizing stack done with
  | zero => exact ⟨stack, done, rfl, rfl, rfl⟩
  | succ n ih =>
    have hne : stack ≠ [] := by
      rintro rfl
      simp [work] at h
    obtain ⟨stack₁, done₁, hadvance, hwork, htotal⟩ := exists_advance done hne
    have hleft : n ≤ work stack₁ := by omega
    obtain ⟨stack₂, done₂, hpasses, hwork₂, htotal₂⟩ := ih done₁ hleft
    refine ⟨stack₂, done₂, ?_, by omega, htotal₂.trans htotal⟩
    simp only [passes, hadvance, bind, Except.bind, hpasses]

end OpenList

open OpenList

/-- Compiling a program takes a number of passes that depends on its blocks only. In front of each
of them the open lists come to the expansion of the program, and behind the last one no list is open
and the result is that expansion. So it contains no loop, the trace of the program is what its
blocks expand to one after the other, and programs that follow each other compile one by one. -/
theorem compile_expands (p : Program) :
    let trace := (Block.expandAll p).map Block.basic
    (∀ n ≤ Block.workAll p, ∃ f below done,
      passes n [⟨p, [], 1⟩] [] = .ok (f :: below, done) ∧ total (f :: below) done = trace) ∧
    passes (Block.workAll p + 1) [⟨p, [], 1⟩] [] = .ok ([], trace) ∧
    compile p = .ok trace ∧ (∀ b ∈ trace, b.type ≠ .loop) ∧
    p.compile.toList = Block.expandAll p ∧
    ∀ q, Program.compile (p ++ q) = p.compile ++ q.compile := by
  intro trace
  have hwork : work [⟨p, [], 1⟩] = Block.workAll p + 1 := rfl
  have htotal : total [⟨p, [], 1⟩] [] = trace := by simp [total, unwind, trace]
  refine ⟨?_, ?_, ?_, ?_, p.compile_toList, p.compile_append⟩
  · intro n hn
    obtain ⟨stack, done, hpasses, hleft, hsame⟩ :=
      exists_passes [] (show n ≤ work [⟨p, [], 1⟩] by omega)
    cases stack with
    | nil =>
      simp only [work] at hleft
      omega
    | cons f below => exact ⟨f, below, done, hpasses, hsame.trans htotal⟩
  · obtain ⟨stack, done, hpasses, hleft, hsame⟩ := exists_passes [] (Nat.le_of_eq hwork.symm)
    cases stack with
    | nil =>
      obtain rfl : done = trace := hsame.trans htotal
      exact hpasses
    | cons f below =>
      simp only [work] at hleft
      omega
  · rw [compile_eq, Program.compile_toList]
  · intro b hb
    obtain ⟨i, -, rfl⟩ := List.mem_map.mp hb
    exact BlockType.noConfusion

end GridRobot.Lookup
