import Mathlib.Order.Lattice.Nat
import GridRobot.Campaign.Demo
import GridRobot.Proofs.Campaign.Books
import GridRobot.Proofs.Campaign.Unlocking
import GridRobot.Proofs.Execution.Recorded

/-!
# How far a pass comes

A pass over the levels of a new campaign plays each level with its own solution if it is unlocked at
that moment. It gets as far as the solutions win: the first level whose solution does not win is the
last one that is played, and all behind it stay locked. The invariant of one visit is that the books
tell of the attempts up to there.
-/

namespace GridRobot

namespace Program

variable {program : Program} {level : Level} {config : Config} {e : Execution}

/-- An execution ends in a win if the robot has won after some number of steps that the
configuration allows. -/
theorem execute_won_iff (h : program.execute level config = .ok e) :
    e.final.won = true ↔ ∃ k ≤ config.limit, (program.robotAfter level k).won = true := by
  obtain ⟨n, hend, rfl⟩ := exists_executionAfter h
  constructor
  · intro hwon
    exact ⟨n, hend.le_limit, hwon⟩
  · rintro ⟨k, hk, hwon⟩
    have hterminal : (program.robotAfter level k).terminal = true := by simp [Robot.terminal, hwon]
    have hle : n ≤ k := by
      by_contra hlt
      have hrunning := hend.running k (by omega)
      exact absurd (hrunning.symm.trans hterminal) (by decide)
    rcases hend.stops with hstop | hstop | hstop
    · have hsame : program.robotAfter level k = program.robotAfter level n :=
        Robot.after_of_terminal hle hstop
      rwa [hsame] at hwon
    · have hsame : program.robotAfter level k = program.robotAfter level n := by
        rw [robotAfter, robotAfter, Robot.after, Robot.after, List.take_of_length_le hstop,
          List.take_of_length_le (Nat.le_trans hstop hle)]
      rwa [hsame] at hwon
    · obtain rfl : n = k := by omega
      exact hwon

end Program

/-- The solution of a level wins it within the limit of the default configuration. -/
def Level.Solved (l : Level) : Prop :=
  ∃ k ≤ ({} : Config).limit, (l.solution.robotAfter l k).won = true

instance (l : Level) : Decidable l.Solved :=
  inferInstanceAs (Decidable (∃ k ≤ ({} : Config).limit, (l.solution.robotAfter l k).won = true))

namespace Campaign

variable {levels : List Level} {c : Campaign} {l : Level} {w n : Nat}

/-- The longest prefix of the levels whose solutions win has `w` levels. -/
def LongestSolved (levels : List Level) (w : Nat) : Prop :=
  IsGreatest {m | m ≤ levels.length ∧ ∀ l ∈ levels.take m, l.Solved} w

theorem exists_longestSolved (levels : List Level) : ∃ w, LongestSolved levels w := by
  have hnonempty : {m | m ≤ levels.length ∧ ∀ l ∈ levels.take m, l.Solved}.Nonempty :=
    ⟨0, Nat.zero_le _, by simp⟩
  have hbounded : BddAbove {m | m ≤ levels.length ∧ ∀ l ∈ levels.take m, l.Solved} :=
    ⟨levels.length, fun _ hm => hm.1⟩
  exact ⟨_, Nat.sSup_mem hnonempty hbounded, fun _ hm => le_csSup hbounded hm⟩

/-- Up to the level behind the longest prefix, what is in the prefix is what is solved. -/
theorem LongestSolved.solved_iff (h : LongestSolved levels w) (hl : levels[n]? = some l)
    (hn : n ≤ w) : l.Solved ↔ n < w := by
  constructor
  · intro hs
    by_contra hlt
    obtain rfl : n = w := by omega
    have hlonger : n + 1 ≤ n := h.2 ⟨(List.getElem?_eq_some_iff.mp hl).1, by
      intro l' hl'
      rw [List.take_add_one, hl, List.mem_append] at hl'
      rcases hl' with hmem | hmem
      · exact h.1.2 l' hmem
      · rwa [← (by simpa using hmem : l' = l)] at hs⟩
    omega
  · intro hlt
    exact h.1.2 l (List.mem_iff_getElem?.mpr ⟨n, by rw [List.getElem?_take_of_lt hlt, hl]⟩)

/-- How a run of the solution of a level is rated. -/
def verdict (l : Level) : Rating := l.solution.rating l (decide l.Solved)

theorem verdict_ne_failed_iff : verdict l ≠ .failed ↔ l.Solved := by
  rw [verdict, Program.rating_ne_failed_iff, decide_eq_true_iff]

theorem verdict_of_solved (h : l.Solved) :
    verdict l = if (l.solution.length : Int) ≤ l.optimalBlocks then .perfect else .complete := by
  rw [verdict, decide_eq_true h]
  rfl

/-- The call that records a run of the solution of a level. -/
def attempt (l : Level) : Call := (l.id, verdict l)

/-- What a visit to an unlocked level does. -/
theorem visit_of_unlocked (hu : c.unlocked l.id = .ok true) (hne : l.solution ≠ []) :
    ∃ e, l.solution.execute l passConfig = .ok e ∧
      c.visit l l.solution passConfig =
        .ok ⟨c.enter (attempt l), l, some (e, l.solution.rating l e.final.won)⟩ := by
  obtain ⟨k, -, hexec⟩ := Program.execute_eq l passConfig hne
  have hwon : (l.solution.executionAfter l k).final.won = decide l.Solved := by
    have hiff := Program.execute_won_iff hexec
    rw [Bool.eq_iff_iff, decide_eq_true_iff]
    exact hiff
  refine ⟨_, hexec, ?_⟩
  simp only [visit, hu, hexec, bind, Except.bind, pure, Except.pure, attempt, verdict, hwon, enter]
  cases c.record l.id (l.solution.rating l (decide l.Solved)) <;> rfl

/-- A level of the campaign is either unlocked or locked. -/
theorem unlocked_eq_false (hk : Known c.levels l.id) (hu : c.unlocked l.id ≠ .ok true) :
    c.unlocked l.id = .ok false := by
  obtain ⟨n, hn⟩ := exists_index hk
  obtain ⟨b, hb⟩ : ∃ b, c.unlocked l.id = .ok b := by
    cases n <;> exact ⟨_, by simp only [unlocked, hn, bind, Except.bind]; rfl⟩
  cases b with
  | false => exact hb
  | true => contradiction

theorem visit_of_locked {program : Program} {config : Config}
    (hu : c.unlocked l.id ≠ .ok true) : c.visit l program config = .ok ⟨c, l, none⟩ := by
  unfold visit
  split
  · contradiction
  · rfl

/-- The attempts of the first `n` levels. -/
def attempts (levels : List Level) (n : Nat) : List Call := (levels.take n).map attempt

theorem attempts_succ (hl : levels[n]? = some l) :
    attempts levels (n + 1) = attempts levels n ++ [attempt l] := by
  simp [attempts, List.take_add_one, hl]

/-- What a visit to the level at index `n` shows if the first `w` solutions win and the next one does
not. -/
structure Visit.At (v : Visit) (w n : Nat) (l : Level) : Prop where
  level : v.level = l
  played : n < w + 1 → ∃ e, l.solution.execute l passConfig = .ok e ∧
    v.played = some (e, l.solution.rating l e.final.won)
  locked : w + 1 ≤ n → v.played = none ∧ v.campaign.unlocked l.id = .ok false

section Distinct

variable (hd : (levels.map Level.id).Nodup)

include hd

/-- Among the attempts there is one for each level. -/
theorem mem_attempts_iff {r : Rating} (hl : levels[n]? = some l) {m : Nat} :
    (l.id, r) ∈ attempts levels m ↔ n < m ∧ r = verdict l := by
  constructor
  · intro h
    obtain ⟨l', hmem, he⟩ := List.mem_map.mp h
    obtain ⟨k, hk⟩ := List.mem_iff_getElem?.mp hmem
    rw [List.getElem?_take] at hk
    split at hk
    · rename_i hlt
      obtain ⟨hid, rfl⟩ := Prod.mk.inj he
      obtain rfl := index_unique hd hl hk hid.symm
      rw [hl] at hk
      cases hk
      exact ⟨hlt, rfl⟩
    · cases hk
  · rintro ⟨hlt, hr⟩
    have hmem : l ∈ levels.take m :=
      List.mem_iff_getElem?.mpr ⟨n, by rw [List.getElem?_take_of_lt hlt, hl]⟩
    rw [hr]
    exact List.mem_map_of_mem hmem

/-- When the books tell of the attempts of the first `n` levels, up to the one behind the longest
prefix, the levels of the prefix among them are completed. -/
theorem completedFirst_of_tells (hw : LongestSolved levels w)
    (h : Tells levels (attempts levels (min n (w + 1))) c) :
    CompletedFirst levels (min n w) c := by
  have hlevel {k : Nat} {l : Level} (hl : levels[k]? = some l) :
      l.id ∈ c.completed ↔ k < min n w := by
    rw [h.mem_completed_iff]
    constructor
    · rintro ⟨r, -, hr, hmem⟩
      obtain ⟨hk, he⟩ := (mem_attempts_iff hd hl).mp hmem
      have hsolved := (hw.solved_iff hl (by omega)).mp (verdict_ne_failed_iff.mp (he ▸ hr))
      omega
    · intro hk
      have hsolved := (hw.solved_iff hl (by omega)).mpr (by omega)
      exact ⟨verdict l, ⟨l, List.mem_of_getElem? hl, rfl⟩, verdict_ne_failed_iff.mpr hsolved,
        (mem_attempts_iff hd hl).mpr ⟨by omega, rfl⟩⟩
  refine ⟨h.levels_eq, Nat.le_trans (Nat.min_le_right n w) hw.1.1, fun id => ?_⟩
  constructor
  · intro hid
    obtain ⟨-, ⟨l, hmem, rfl⟩, -⟩ := h.mem_completed_iff.mp hid
    obtain ⟨k, hk⟩ := List.mem_iff_getElem?.mp hmem
    exact (id_mem_take_iff hd hk).mpr ((hlevel hk).mp hid)
  · intro hid
    obtain ⟨l, hmem, rfl⟩ := List.mem_map.mp hid
    obtain ⟨k, hk⟩ := List.mem_iff_getElem?.mp (List.mem_of_mem_take hmem)
    exact (hlevel hk).mpr ((id_mem_take_iff hd hk).mp hid)

/-- A visit to the level at index `n` plays it if the levels in front of it have all been won. -/
theorem visit_at (hw : LongestSolved levels w) (hl : levels[n]? = some l) (hne : l.solution ≠ [])
    (h : Tells levels (attempts levels (min n (w + 1))) c) :
    ∃ v, c.visit l l.solution passConfig = .ok v ∧ v.At w n l ∧
      Tells levels (attempts levels (min (n + 1) (w + 1))) v.campaign := by
  have hopen : c.unlocked l.id = .ok true ↔ n ≤ w := by
    rw [(completedFirst_of_tells hd hw h).unlocked_iff hd]
    constructor
    · rintro ⟨k, l', hk, hl', hid⟩
      have hkn := index_unique hd hl' hl hid
      omega
    · intro hn
      exact ⟨n, l, by omega, hl, rfl⟩
  by_cases hn : n ≤ w
  · obtain ⟨e, hexec, hvisit⟩ := visit_of_unlocked (hopen.mpr hn) hne
    refine ⟨_, hvisit, ⟨rfl, fun _ => ⟨e, hexec, rfl⟩, fun hlt => absurd hlt (by omega)⟩, ?_⟩
    have hmin : min n (w + 1) = n ∧ min (n + 1) (w + 1) = n + 1 := by omega
    rw [hmin.1] at h
    rw [hmin.2, attempts_succ hl]
    exact h.enter (attempt l)
  · have hu : c.unlocked l.id ≠ .ok true := mt hopen.mp hn
    have hknown : Known c.levels l.id := ⟨l, h.levels_eq ▸ List.mem_of_getElem? hl, rfl⟩
    refine ⟨_, visit_of_locked hu, ⟨rfl, fun hlt => absurd hlt (by omega), fun _ =>
      ⟨rfl, unlocked_eq_false hknown hu⟩⟩, ?_⟩
    have hmin : min (n + 1) (w + 1) = min n (w + 1) := by omega
    rwa [hmin]

/-- What is left of a pass in front of the level at index `n`. -/
theorem pass_drop (hw : LongestSolved levels w) (hne : ∀ l ∈ levels, l.solution ≠ [])
    {ls : List Level} (hls : levels.drop n = ls)
    (h : Tells levels (attempts levels (min n (w + 1))) c) :
    ∃ c' visits, c.pass ls = .ok (c', visits) ∧
      Tells levels (attempts levels (min (n + ls.length) (w + 1))) c' ∧
      visits.length = ls.length ∧
      ∀ k l, ls[k]? = some l → ∃ v : Visit, visits[k]? = some v ∧ v.At w (n + k) l := by
  induction ls generalizing n c with
  | nil => exact ⟨c, [], rfl, h, rfl, by simp⟩
  | cons l ls ih =>
    have hl : levels[n]? = some l := by rw [← List.head?_drop, hls, List.head?_cons]
    have hrest : levels.drop (n + 1) = ls := by rw [← List.tail_drop, hls, List.tail_cons]
    obtain ⟨v, hvisit, hv, htells⟩ := visit_at hd hw hl (hne l (List.mem_of_getElem? hl)) h
    obtain ⟨c', visits, hpass, hend, hlen, hvisits⟩ := ih hrest htells
    refine ⟨c', v :: visits, ?_, ?_, congrArg (· + 1) hlen, ?_⟩
    · simp only [pass, hvisit, hpass, bind, Except.bind, pure, Except.pure]
    · rwa [List.length_cons, ← Nat.add_assoc, Nat.add_right_comm]
    · intro k l' hl'
      cases k with
      | zero =>
        cases hl'
        exact ⟨v, rfl, hv⟩
      | succ k =>
        obtain ⟨v', hv', hat⟩ := hvisits k l' hl'
        exact ⟨v', hv', by rwa [Nat.add_right_comm] at hat⟩

/-- The ratings that the attempts have earned are those of the solutions that win. -/
theorem rating?_of_tells {m : Nat} (h : Tells levels (attempts levels m) c)
    (hl : levels[n]? = some l) (hid : l.id ∈ c.completed) : c.rating? l.id = some (verdict l) := by
  have hne := h.inStep.rating?_ne_none_iff.mpr hid
  obtain ⟨r, -, hr, hmem⟩ := h.mem_completed_iff.mp hid
  obtain ⟨hn, he⟩ := (mem_attempts_iff hd hl).mp hmem
  rw [h.rating] at hne ⊢
  have hperfect : (l.id, .perfect) ∈ attempts levels m ↔ verdict l = .perfect := by
    rw [mem_attempts_iff hd hl, and_iff_right hn, eq_comm]
  rw [earned_of_ne_none hne, Option.some_inj]
  rw [he] at hr
  split
  · exact (hperfect.mp ‹_›).symm
  · have hcomplete := mt hperfect.mpr ‹_›
    cases hv : verdict l with
    | perfect => exact absurd hv hcomplete
    | complete => rfl
    | failed => exact absurd hv hr

end Distinct

/-- One pass over the levels of a new campaign, none of whose ids are the same and none of whose
solutions are empty, completes exactly the levels of the longest prefix whose solutions win within
the default limit, and rates each of them by its solution. It plays these levels and the next one,
if there is one, and skips all later ones, which are locked when it comes to them, whether or not
their solutions would win. -/
theorem pass_longest_prefix (hd : (levels.map Level.id).Nodup)
    (hne : ∀ l ∈ levels, l.solution ≠ []) :
    ∃ c visits w, pass { levels } levels = .ok (c, visits) ∧
      IsGreatest {m | m ≤ levels.length ∧ ∀ l ∈ levels.take m, l.Solved} w ∧
      c.completed.Perm ((levels.take w).map Level.id) ∧
      visits.length = levels.length ∧
      (∀ n l, levels[n]? = some l → ∃ v : Visit, visits[n]? = some v ∧ v.level = l ∧
        (n < min (w + 1) levels.length → ∃ e, l.solution.execute l passConfig = .ok e ∧
          v.played = some (e, l.solution.rating l e.final.won)) ∧
        (min (w + 1) levels.length ≤ n → v.played = none ∧
          v.campaign.unlocked l.id = .ok false)) ∧
      c.progress = (w, levels.length) ∧
      (∀ l ∈ levels, l.id ∈ c.completed → c.rating? l.id =
        some (if (l.solution.length : Int) ≤ l.optimalBlocks then .perfect else .complete)) := by
  obtain ⟨w, hw⟩ := exists_longestSolved levels
  have hnew : Tells levels (attempts levels (min 0 (w + 1))) { levels } := by
    rw [Nat.zero_min]
    exact new_tells levels
  obtain ⟨c, visits, hpass, htells, hlen, hvisits⟩ := pass_drop hd hw hne List.drop_zero hnew
  rw [Nat.zero_add] at htells
  have hfirst := completedFirst_of_tells hd hw htells
  rw [Nat.min_eq_right hw.1.1] at hfirst
  have hcompleted : c.completed.Perm ((levels.take w).map Level.id) :=
    (List.perm_ext_iff_of_nodup htells.inStep.completed_nodup
      (hd.sublist ((List.take_sublist w levels).map _))).mpr hfirst.mem_iff
  refine ⟨c, visits, w, hpass, hw, hcompleted, hlen, ?_, ?_, ?_⟩
  · intro n l hl
    have hlt : n < levels.length := (List.getElem?_eq_some_iff.mp hl).1
    obtain ⟨v, hv, hat⟩ := hvisits n l hl
    rw [Nat.zero_add] at hat
    exact ⟨v, hv, hat.level, fun h => hat.played (by omega), fun h => hat.locked (by omega)⟩
  · rw [progress, hcompleted.length_eq, htells.levels_eq, List.length_map, List.length_take,
      Nat.min_eq_left hw.1.1]
  · intro l hl hid
    obtain ⟨n, hn⟩ := List.mem_iff_getElem?.mp hl
    have hlt := (id_mem_take_iff hd hn).mp ((hfirst.mem_iff l.id).mp hid)
    have hsolved := (hw.solved_iff hn (Nat.le_of_lt hlt)).mpr hlt
    rw [rating?_of_tells hd htells hn hid, verdict_of_solved hsolved]

/-- The second built-in level with a solution that leaves the robot where it starts. -/
def unsolvedCorner : Level :=
  { corner with solution := [.loop ⟨0, by decide⟩ [.basic .move], .basic .turnLeft] }

/-- The first level is won and the second is not, so the third is not played, though its solution
would win. -/
theorem pass_longest_prefix_stuck :
    let levels := [initiation, unsolvedCorner, loopLogic]
    (levels.map Level.id).Nodup ∧ (∀ l ∈ levels, l.solution ≠ []) ∧ loopLogic.Solved ∧
    ∃ c visits, pass { levels } levels = .ok (c, visits) ∧ c.completed = [1] ∧
      c.progress = (1, 3) ∧ c.rating? 1 = some .perfect ∧
      ∃ v : Visit, visits[2]? = some v ∧ v.played = none ∧ v.campaign.unlocked 3 = .ok false := by
  intro levels
  have hd : (levels.map Level.id).Nodup := by decide
  have hne : ∀ l ∈ levels, l.solution ≠ [] := by simp [levels, initiation, unsolvedCorner, loopLogic]
  have hsolved : initiation.Solved ∧ ¬unsolvedCorner.Solved ∧ loopLogic.Solved := by decide +kernel
  obtain ⟨c, visits, w, hpass, hw, hcompleted, -, hvisits, hprogress, hrating⟩ :=
    pass_longest_prefix hd hne
  have hone : LongestSolved levels 1 := by
    refine ⟨⟨by decide, by simpa [levels] using hsolved.1⟩, fun m hm => ?_⟩
    by_contra hlt
    exact hsolved.2.1 (hm.2 _ (List.mem_iff_getElem?.mpr ⟨1, by
      rw [List.getElem?_take_of_lt (by omega)]; rfl⟩))
  obtain rfl : w = 1 := hw.unique hone
  have hids : c.completed = [1] := List.perm_singleton.mp hcompleted
  obtain ⟨v, hv, -, -, hlocked⟩ := hvisits 2 loopLogic rfl
  refine ⟨hd, hne, hsolved.2.2, c, visits, hpass, hids, hprogress, ?_, v, hv, hlocked (by decide)⟩
  exact hrating initiation List.mem_cons_self (hids ▸ List.mem_cons_self)

end Campaign

end GridRobot
