import Mathlib.Data.List.Nodup
import Mathlib.Data.List.Perm.Subperm
import GridRobot.Campaign.Levels
import GridRobot.Proofs.Campaign.Record

/-!
# The books of a campaign

A campaign keeps two books: the completed levels, and the best rating of each of them. Whatever
calls have been made in whatever order, the books can be read off the calls that have been made at
all: a level has been completed if a call has recorded a win of it, and its best rating is perfect
if a call has recorded a perfect one. The invariant of one call is `Tells`.
-/

namespace GridRobot

/-- A better rating has a higher rank. -/
def Rating.rank : Rating → Nat
  | failed => 0
  | complete => 1
  | perfect => 2

namespace Campaign

variable {levels : List Level} {calls : List Call} {c : Campaign} {id j : Int} {r s : Rating}

/-- The calls record a win of a known level with this rating. -/
def Wins (levels : List Level) (calls : List Call) (id : Int) (r : Rating) : Prop :=
  Known levels id ∧ r ≠ .failed ∧ (id, r) ∈ calls

instance (levels : List Level) (calls : List Call) (id : Int) (r : Rating) :
    Decidable (Wins levels calls id r) :=
  inferInstanceAs (Decidable (_ ∧ _ ∧ _))

theorem Wins.mono {more : List Call} (hsub : calls ⊆ more) (h : Wins levels calls id r) :
    Wins levels more id r := ⟨h.1, h.2.1, hsub h.2.2⟩

theorem wins_concat : Wins levels (calls ++ [(id, r)]) j s ↔
    Wins levels calls j s ∨ (j = id ∧ s = r) ∧ Known levels id ∧ r ≠ .failed := by
  simp only [Wins, List.mem_append, List.mem_singleton, Prod.mk.injEq]
  constructor
  · rintro ⟨hk, hs, h | ⟨rfl, rfl⟩⟩
    · exact .inl ⟨hk, hs, h⟩
    · exact .inr ⟨⟨rfl, rfl⟩, hk, hs⟩
  · rintro (⟨hk, hs, h⟩ | ⟨⟨rfl, rfl⟩, hk, hs⟩)
    · exact ⟨hk, hs, .inl h⟩
    · exact ⟨hk, hs, .inr ⟨rfl, rfl⟩⟩

/-- The best rating that the calls have earned for a level. -/
def earned (levels : List Level) (calls : List Call) (id : Int) : Option Rating :=
  if Wins levels calls id .perfect then some .perfect
  else if Wins levels calls id .complete then some .complete
  else none

theorem earned_congr {calls' : List Call}
    (h : ∀ s, Wins levels calls' id s ↔ Wins levels calls id s) :
    earned levels calls' id = earned levels calls id := by
  simp only [earned, h]

theorem earned_ne_none_iff : earned levels calls id ≠ none ↔ ∃ r, Wins levels calls id r := by
  unfold earned
  constructor
  · intro h
    by_cases hp : Wins levels calls id .perfect
    · exact ⟨_, hp⟩
    · by_cases hc : Wins levels calls id .complete
      · exact ⟨_, hc⟩
      · simp [hp, hc] at h
  · rintro ⟨r, hr⟩
    cases r with
    | perfect => simp [hr]
    | complete => by_cases hp : Wins levels calls id .perfect <;> simp [hp, hr]
    | failed => exact absurd rfl hr.2.1

/-- Whatever has been earned is perfect if a perfect win is among the calls. -/
theorem earned_of_ne_none (h : earned levels calls id ≠ none) :
    earned levels calls id = some (if (id, .perfect) ∈ calls then .perfect else .complete) := by
  obtain ⟨r, hk, hr, hmem⟩ := earned_ne_none_iff.mp h
  by_cases hp : (id, Rating.perfect) ∈ calls
  · simp [earned, Wins, hk, hp]
  · have hc : (id, Rating.complete) ∈ calls := by cases r <;> simp_all
    simp [earned, Wins, hk, hp, hc]

/-- A further win improves the rating of its level as a single credit does. -/
theorem earned_concat (hk : Known levels id) (hr : r ≠ .failed) :
    earned levels (calls ++ [(id, r)]) id = some (improve r (earned levels calls id)) := by
  by_cases hp : Wins levels calls id .perfect <;> by_cases hc : Wins levels calls id .complete <;>
    cases r <;> simp_all [earned, wins_concat, improve]

theorem earned_concat_of_ne (h : ¬(j = id ∧ Known levels id ∧ r ≠ .failed)) :
    earned levels (calls ++ [(id, r)]) j = earned levels calls j := by
  refine earned_congr fun s => ?_
  rw [wins_concat]
  exact or_iff_left fun hs => h ⟨hs.1.1, hs.2⟩

/-- More calls earn ratings that are at least as good. -/
theorem earned_mono {more : List Call} (hsub : calls ⊆ more)
    (hr : earned levels calls id = some r) :
    ∃ r', earned levels more id = some r' ∧ r.rank ≤ r'.rank := by
  have hne : earned levels calls id ≠ none := by simp [hr]
  have hmore : earned levels more id ≠ none := by
    obtain ⟨s, hs⟩ := earned_ne_none_iff.mp hne
    exact earned_ne_none_iff.mpr ⟨s, hs.mono hsub⟩
  refine ⟨_, earned_of_ne_none hmore, ?_⟩
  obtain rfl := Option.some_inj.mp (hr.symm.trans (earned_of_ne_none hne))
  by_cases hp : (id, Rating.perfect) ∈ calls
  · have hmem := hsub hp
    simp only [hp, hmem, ↓reduceIte, Nat.le_refl]
  · rw [if_neg hp]
    split <;> decide

/-- The two books are in step: they have entries for the same levels, and one for each. -/
structure InStep (c : Campaign) : Prop where
  completed_nodup : c.completed.Nodup
  keys_nodup : (c.best.map Prod.fst).Nodup
  mem_keys_iff : ∀ id, id ∈ c.best.map Prod.fst ↔ id ∈ c.completed

namespace InStep

theorem credit (h : c.InStep) (id : Int) (r : Rating) : (c.credit id r).InStep where
  completed_nodup := by
    simp only [Campaign.credit]
    split
    · exact h.completed_nodup
    · exact List.nodup_cons.mpr ⟨‹_›, h.completed_nodup⟩
  keys_nodup := by
    have hsub : ((c.best.filter fun b => b.1 ≠ id).map Prod.fst).Nodup :=
      h.keys_nodup.sublist (List.filter_sublist.map _)
    simpa [Campaign.credit] using hsub
  mem_keys_iff j := by rw [mem_keys_credit, mem_completed_credit, h.mem_keys_iff]

theorem best_nodup (h : c.InStep) : c.best.Nodup := List.Nodup.of_map Prod.fst h.keys_nodup

/-- With one entry for each level, an entry of the book is the one that a lookup finds. -/
theorem mem_best_iff (h : c.InStep) : (id, r) ∈ c.best ↔ c.rating? id = some r := by
  rw [rating?, List.lookup_eq_some_iff]
  constructor
  · intro hmem
    obtain ⟨front, back, hbest⟩ := List.append_of_mem hmem
    refine ⟨front, back, hbest, fun b hb => ?_⟩
    have hnodup := h.keys_nodup
    rw [hbest, List.map_append, List.nodup_append] at hnodup
    have hne : b.1 ≠ id := hnodup.2.2 b.1 (List.mem_map_of_mem hb) id (by simp)
    simpa using hne.symm
  · rintro ⟨front, back, hbest, -⟩
    simp [hbest]

theorem rating?_ne_none_iff (h : c.InStep) : c.rating? id ≠ none ↔ id ∈ c.completed := by
  rw [← h.mem_keys_iff, rating?, ← Option.isSome_iff_ne_none, List.lookup_isSome_iff, List.mem_map]
  refine exists_congr fun b => and_congr_right fun _ => ?_
  rw [beq_iff_eq, eq_comm]

end InStep

/-- The books of a campaign with these levels tell of these calls. -/
structure Tells (levels : List Level) (calls : List Call) (c : Campaign) : Prop where
  levels_eq : c.levels = levels
  inStep : c.InStep
  rating : ∀ id, c.rating? id = earned levels calls id

theorem new_tells (levels : List Level) : Tells levels [] { levels } where
  levels_eq := rfl
  inStep := ⟨List.nodup_nil, List.nodup_nil, by simp⟩
  rating id := by simp [earned, Wins, rating?]

theorem Tells.enter (h : Tells levels calls c) (call : Call) :
    Tells levels (calls ++ [call]) (c.enter call) := by
  obtain ⟨id, r⟩ := call
  have hcases := enter_cases c id r
  rw [h.levels_eq] at hcases
  rcases hcases with ⟨hk, hr, he⟩ | ⟨hno, he⟩
  · rw [he]
    refine ⟨h.levels_eq, h.inStep.credit id r, ?_⟩
    intro j
    rw [rating?_credit, h.rating, h.rating]
    by_cases hj : j = id
    · rw [if_pos hj, hj, earned_concat hk hr]
    · rw [if_neg hj, earned_concat_of_ne fun hs => hj hs.1]
  · rw [he]
    refine ⟨h.levels_eq, h.inStep, ?_⟩
    intro j
    rw [h.rating, earned_concat_of_ne fun hs => hno hs.2]

theorem Tells.enterAll (h : Tells levels calls c) (more : List Call) :
    Tells levels (calls ++ more) (c.enterAll more) := by
  induction more generalizing calls c with
  | nil => rwa [List.append_nil]
  | cons call more ih =>
    have hnext := ih (h.enter call)
    rwa [List.append_assoc] at hnext

theorem enterAll_tells (levels : List Level) (calls : List Call) :
    Tells levels calls (enterAll { levels } calls) := (new_tells levels).enterAll calls

namespace Tells

variable {calls' : List Call} {c' : Campaign}

theorem mem_completed_iff (h : Tells levels calls c) :
    id ∈ c.completed ↔ ∃ r, Wins levels calls id r := by
  rw [← h.inStep.rating?_ne_none_iff, h.rating, earned_ne_none_iff]

/-- Campaigns that tell of the same calls, however often and in whatever order, have the same
entries in their books. -/
theorem perm (h : Tells levels calls c) (h' : Tells levels calls' c')
    (hsame : ∀ call, call ∈ calls' ↔ call ∈ calls) :
    c'.completed.Perm c.completed ∧ c'.best.Perm c.best := by
  have hwins (id : Int) (r : Rating) : Wins levels calls' id r ↔ Wins levels calls id r := by
    simp only [Wins, hsame]
  constructor
  · refine (List.perm_ext_iff_of_nodup h'.inStep.completed_nodup h.inStep.completed_nodup).mpr ?_
    intro id
    simp only [h'.mem_completed_iff, h.mem_completed_iff, hwins]
  · refine (List.perm_ext_iff_of_nodup h'.inStep.best_nodup h.inStep.best_nodup).mpr ?_
    rintro ⟨id, r⟩
    rw [h'.inStep.mem_best_iff, h.inStep.mem_best_iff, h'.rating, h.rating, earned_congr (hwins id)]

theorem completed_subset (h : Tells levels calls c) (h' : Tells levels calls' c')
    (hsub : calls ⊆ calls') : c.completed ⊆ c'.completed := by
  intro id hid
  obtain ⟨r, hr⟩ := h.mem_completed_iff.mp hid
  exact h'.mem_completed_iff.mpr ⟨r, hr.mono hsub⟩

/-- Each level counts once, also if it shares its id with another one. -/
theorem progress_le (h : Tells levels calls c) : c.progress.1 ≤ levels.length := by
  have hsub : c.completed ⊆ levels.map Level.id := by
    intro id hid
    obtain ⟨r, ⟨l, hl, rfl⟩, -⟩ := h.mem_completed_iff.mp hid
    exact List.mem_map_of_mem hl
  have hlen := (h.inStep.completed_nodup.subperm hsub).length_le
  rwa [List.length_map] at hlen

end Tells

/-- Which levels are unlocked depends on nothing but the levels and which of them are completed. -/
theorem unlocked_congr {c' : Campaign} (hl : c'.levels = c.levels)
    (hc : ∀ id, id ∈ c'.completed ↔ id ∈ c.completed) : c'.unlocked id = c.unlocked id := by
  simp only [unlocked, index, hl, hc]

theorem unlocked_mono {c' : Campaign} (hl : c'.levels = c.levels)
    (hsub : c.completed ⊆ c'.completed) (h : c.unlocked id = .ok true) :
    c'.unlocked id = .ok true := by
  obtain ⟨n, hn, hopen⟩ := unlocked_iff.mp h
  refine unlocked_iff.mpr ⟨n, ?_, ?_⟩
  · simpa only [index, hl] using hn
  · cases n with
    | zero => trivial
    | succ n =>
      obtain ⟨l, hl', hid⟩ := hopen
      exact ⟨l, by rw [hl, hl'], hsub hid⟩

/-- After any calls on a new campaign: a call for an unknown id is refused and changes nothing; the
completed levels are the known ones of which a win has been recorded, exactly these have a best
rating, and it is perfect if a perfect win has been recorded. So the order of the calls and their
repetition do not matter, and with further calls no rating gets worse, no level is locked again and
the progress, which is never more than the number of levels, does not fall. -/
theorem enterAll_books (levels : List Level) (calls : List Call) :
    let c := enterAll { levels } calls
    (∀ id r, ¬Known levels id → c.record id r = .error ⟨id⟩ ∧ c.enter (id, r) = c) ∧
    (∀ id r, Known levels id → ∃ next, c.record id r = .ok next ∧ c.enter (id, r) = next) ∧
    c.completed.Nodup ∧
    (∀ id, id ∈ c.completed ↔ Known levels id ∧ ∃ r, r ≠ .failed ∧ (id, r) ∈ calls) ∧
    (c.best.map Prod.fst).Nodup ∧
    (∀ id, id ∈ c.best.map Prod.fst ↔ id ∈ c.completed) ∧
    (∀ id ∈ c.completed,
      c.rating? id = some (if (id, .perfect) ∈ calls then .perfect else .complete)) ∧
    (∀ calls', (∀ call, call ∈ calls' ↔ call ∈ calls) →
      let c' := enterAll { levels } calls'
      c'.completed.Perm c.completed ∧ c'.best.Perm c.best ∧ c'.progress = c.progress ∧
      ∀ id, c'.unlocked id = c.unlocked id) ∧
    (∀ more,
      let c' := c.enterAll more
      (∀ id r, c.rating? id = some r → ∃ r', c'.rating? id = some r' ∧ r.rank ≤ r'.rank) ∧
      (∀ id, c.unlocked id = .ok true → c'.unlocked id = .ok true) ∧
      c.progress.1 ≤ c'.progress.1) ∧
    c.progress.1 ≤ levels.length ∧ c.progress.2 = levels.length := by
  intro c
  have h : Tells levels calls c := enterAll_tells levels calls
  refine ⟨?_, ?_, h.inStep.completed_nodup, ?_, h.inStep.keys_nodup, h.inStep.mem_keys_iff, ?_, ?_,
    ?_, h.progress_le, congrArg List.length h.levels_eq⟩
  · intro id r hk
    have hrecord : c.record id r = .error ⟨id⟩ :=
      record_eq_error_iff.mpr ⟨h.levels_eq ▸ hk, rfl⟩
    exact ⟨hrecord, enter_of_error hrecord⟩
  · intro id r hk
    cases hrecord : c.record id r with
    | error e => exact absurd (h.levels_eq ▸ hk) (record_eq_error_iff.mp hrecord).1
    | ok next => exact ⟨next, rfl, enter_of_ok hrecord⟩
  · intro id
    rw [h.mem_completed_iff]
    exact exists_and_left
  · intro id hid
    have hne := h.inStep.rating?_ne_none_iff.mpr hid
    rw [h.rating] at hne ⊢
    exact earned_of_ne_none hne
  · intro calls' hsame c'
    have h' : Tells levels calls' c' := enterAll_tells levels calls'
    obtain ⟨hcompleted, hbest⟩ := h.perm h' hsame
    have hlevels : c'.levels = c.levels := h'.levels_eq.trans h.levels_eq.symm
    refine ⟨hcompleted, hbest, ?_, fun id => unlocked_congr hlevels fun _ => hcompleted.mem_iff⟩
    rw [progress, progress, hcompleted.length_eq, hlevels]
  · intro more c'
    have h' : Tells levels (calls ++ more) c' := h.enterAll more
    have hsub : calls ⊆ calls ++ more := List.subset_append_left _ _
    have hcompleted := h.completed_subset h' hsub
    refine ⟨?_, fun id => unlocked_mono (levels_enterAll c more) hcompleted,
      (h.inStep.completed_nodup.subperm hcompleted).length_le⟩
    intro id r hr
    rw [h.rating] at hr
    rw [h'.rating]
    exact earned_mono hsub hr

/-- A perfect win is not made worse by another one, and neither a failed run nor an unknown level
leaves anything in the books. -/
theorem enterAll_books_builtin :
    let calls := [(2, .perfect), (9, .perfect), (1, .failed), (2, .complete)]
    let c := enterAll { levels := builtin } calls
    Known builtin 2 ∧ ¬Known builtin 9 ∧ c.record 9 .perfect = .error ⟨9⟩ ∧
    2 ∈ c.completed ∧ c.rating? 2 = some .perfect ∧ 1 ∉ c.completed ∧
    (enterAll { levels := builtin } calls.reverse).best.Perm c.best := by
  intro calls c
  have hknown : Known builtin 2 ∧ ¬Known builtin 9 := by decide
  obtain ⟨hunknown, -, -, hcompleted, -, -, hbest, hsame, -⟩ := enterAll_books builtin calls
  have htwo : 2 ∈ c.completed := (hcompleted 2).mpr ⟨hknown.1, .perfect, by decide, by decide⟩
  have hone : 1 ∉ c.completed := by
    intro h
    obtain ⟨-, r, hr, hmem⟩ := (hcompleted 1).mp h
    revert hr hmem
    cases r <;> decide
  exact ⟨hknown.1, hknown.2, (hunknown 9 .perfect hknown.2).1, htwo, hbest 2 htwo, hone,
    (hsame calls.reverse fun _ => List.mem_reverse).2.1⟩

end Campaign

end GridRobot
