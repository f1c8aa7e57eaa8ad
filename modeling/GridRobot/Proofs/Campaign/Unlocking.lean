import Mathlib.Data.List.Nodup
import GridRobot.Campaign.Levels
import GridRobot.Proofs.Campaign.Record

/-!
# Unlocking level by level

Recording a run does not ask whether the level is unlocked. If the caller does, before each call,
and no two levels share an id, then the completed levels are always the first ones of the campaign:
a win adds the next level or none.
-/

namespace GridRobot.Campaign

variable {levels : List Level} {calls : List Call} {c : Campaign} {id : Int} {l : Level} {m n : Nat}

/-- Each of the calls is made for a level that is unlocked at that moment. -/
def Permitted (c : Campaign) : List Call → Prop
  | [] => True
  | call :: calls => c.unlocked call.1 = .ok true ∧ (c.enter call).Permitted calls

instance decidablePermitted : ∀ (c : Campaign) (calls : List Call), Decidable (c.Permitted calls)
  | _, [] => .isTrue trivial
  | c, call :: calls =>
    have := decidablePermitted (c.enter call) calls
    inferInstanceAs (Decidable (_ ∧ _))

/-- The completed levels are the first `m` of the levels. -/
structure CompletedFirst (levels : List Level) (m : Nat) (c : Campaign) : Prop where
  levels_eq : c.levels = levels
  le_length : m ≤ levels.length
  mem_iff : ∀ id, id ∈ c.completed ↔ id ∈ (levels.take m).map Level.id

section Distinct

variable (hd : (levels.map Level.id).Nodup)

include hd

/-- A level is found at its index only. -/
theorem index_unique {l' : Level} (hl : levels[n]? = some l) (hl' : levels[m]? = some l')
    (he : l.id = l'.id) : n = m := by
  have hlt : n < (levels.map Level.id).length := by
    rw [List.length_map]
    exact (List.getElem?_eq_some_iff.mp hl).1
  refine (List.getElem?_inj hlt hd).mp ?_
  rw [List.getElem?_map, List.getElem?_map, hl, hl', Option.map_some, Option.map_some, he]

theorem id_mem_take_iff (hl : levels[n]? = some l) :
    l.id ∈ (levels.take m).map Level.id ↔ n < m := by
  constructor
  · intro h
    obtain ⟨l', hmem, he⟩ := List.mem_map.mp h
    obtain ⟨i, hi⟩ := List.mem_iff_getElem?.mp hmem
    rw [List.getElem?_take] at hi
    split at hi
    · rwa [index_unique hd hl hi he.symm]
    · cases hi
  · intro h
    refine List.mem_map_of_mem (List.mem_iff_getElem?.mpr ⟨n, ?_⟩)
    rw [List.getElem?_take_of_lt h, hl]

/-- With distinct ids, the first level of an id is the only one. -/
theorem index_eq_ok_iff_of_distinct (hc : c.levels = levels) :
    c.index id = .ok n ↔ ∃ l, levels[n]? = some l ∧ l.id = id := by
  rw [index_eq_ok_iff, hc]
  constructor
  · rintro ⟨l, hl, hid, -⟩
    exact ⟨l, hl, hid⟩
  · rintro ⟨l, hl, hid⟩
    refine ⟨l, hl, hid, fun i hi l' hl' he => ?_⟩
    have hin := index_unique hd hl' hl (he.trans hid.symm)
    omega

namespace CompletedFirst

theorem openAt_iff (h : CompletedFirst levels m c) (hl : levels[n]? = some l) :
    c.OpenAt n ↔ n ≤ m := by
  cases n with
  | zero => simp [OpenAt]
  | succ n =>
    have hlt : n + 1 < levels.length := (List.getElem?_eq_some_iff.mp hl).1
    have hprev := List.getElem?_eq_getElem (Nat.lt_of_succ_lt hlt)
    rw [OpenAt, h.levels_eq, hprev]
    simp only [Option.some.injEq, exists_eq_left']
    rw [h.mem_iff, id_mem_take_iff hd hprev, Nat.succ_le_iff]

theorem unlocked_iff (h : CompletedFirst levels m c) :
    c.unlocked id = .ok true ↔ ∃ n l, n ≤ m ∧ levels[n]? = some l ∧ l.id = id := by
  rw [Campaign.unlocked_iff]
  constructor
  · rintro ⟨n, hn, hopen⟩
    obtain ⟨l, hl, hid⟩ := (index_eq_ok_iff_of_distinct hd h.levels_eq).mp hn
    exact ⟨n, l, (h.openAt_iff hd hl).mp hopen, hl, hid⟩
  · rintro ⟨n, l, hn, hl, hid⟩
    exact ⟨n, (index_eq_ok_iff_of_distinct hd h.levels_eq).mpr ⟨l, hl, hid⟩,
      (h.openAt_iff hd hl).mpr hn⟩

/-- A call for an unlocked level completes the next level or none. -/
theorem enter (h : CompletedFirst levels m c) (r : Rating)
    (hu : c.unlocked id = .ok true) : ∃ m', CompletedFirst levels m' (c.enter (id, r)) := by
  rcases enter_cases c id r with ⟨-, -, he⟩ | ⟨-, he⟩
  · obtain ⟨n, l, hn, hl, rfl⟩ := (h.unlocked_iff hd).mp hu
    rw [he]
    by_cases hlt : n < m
    · refine ⟨m, h.levels_eq, h.le_length, fun j => ?_⟩
      rw [mem_completed_credit, h.mem_iff]
      exact or_iff_right_of_imp fun hj => hj ▸ (id_mem_take_iff hd hl).mpr hlt
    · obtain rfl : n = m := by omega
      refine ⟨n + 1, h.levels_eq, (List.getElem?_eq_some_iff.mp hl).1, fun j => ?_⟩
      rw [mem_completed_credit, h.mem_iff, List.take_add_one, hl]
      simp [or_comm]
  · rw [he]
    exact ⟨m, h⟩

theorem enterAll (h : CompletedFirst levels m c) (hp : c.Permitted calls) :
    ∃ m', CompletedFirst levels m' (c.enterAll calls) := by
  induction calls generalizing c m with
  | nil => exact ⟨m, h⟩
  | cons call calls ih =>
    obtain ⟨m', h'⟩ := h.enter hd call.2 hp.1
    exact ih h' hp.2

end CompletedFirst

end Distinct

theorem new_completedFirst (levels : List Level) : CompletedFirst levels 0 { levels } :=
  ⟨rfl, Nat.zero_le _, by simp⟩

/-- If no two levels share an id and each call on a new campaign is made for a level that is
unlocked at that moment, then the completed levels are the first `m` of the campaign for some `m`,
and exactly these and the next one, if there is one, are unlocked. So every completed level is
unlocked, and at most one unlocked level is not completed. -/
theorem enterAll_prefix (hd : (levels.map Level.id).Nodup)
    (hp : Permitted { levels } calls) :
    let c := enterAll { levels } calls
    ∃ m ≤ levels.length,
      (∀ id, id ∈ c.completed ↔ id ∈ (levels.take m).map Level.id) ∧
      (∀ id, c.unlocked id = .ok true ↔ ∃ n l, n ≤ m ∧ levels[n]? = some l ∧ l.id = id) ∧
      (∀ id ∈ c.completed, c.unlocked id = .ok true) ∧
      ∀ id id', c.unlocked id = .ok true → id ∉ c.completed →
        c.unlocked id' = .ok true → id' ∉ c.completed → id = id' := by
  intro c
  obtain ⟨m, h⟩ : ∃ m, CompletedFirst levels m c := (new_completedFirst levels).enterAll hd hp
  -- An unlocked level that is not completed is the one at index `m`.
  have hnext (id : Int) (hu : c.unlocked id = .ok true) (hn : id ∉ c.completed) :
      levels[m]?.map Level.id = some id := by
    obtain ⟨n, l, hle, hl, rfl⟩ := (h.unlocked_iff hd).mp hu
    rw [h.mem_iff, id_mem_take_iff hd hl] at hn
    obtain rfl : n = m := by omega
    rw [hl, Option.map_some]
  refine ⟨m, h.le_length, h.mem_iff, fun id => h.unlocked_iff hd, ?_, ?_⟩
  · intro id hid
    obtain ⟨l, hmem, rfl⟩ := List.mem_map.mp ((h.mem_iff id).mp hid)
    obtain ⟨n, hl⟩ := List.mem_iff_getElem?.mp (List.mem_of_mem_take hmem)
    have hlt := (id_mem_take_iff hd hl).mp ((h.mem_iff l.id).mp hid)
    exact (h.unlocked_iff hd).mpr ⟨n, l, Nat.le_of_lt hlt, hl, rfl⟩
  · intro id id' hu hn hu' hn'
    exact Option.some_inj.mp ((hnext id hu hn).symm.trans (hnext id' hu' hn'))

/-- The first level is failed, completed and played again, the second is completed at once, and the
third is left unlocked. -/
theorem enterAll_prefix_builtin :
    let levels := builtin
    let calls : List Call := [(1, .failed), (1, .complete), (2, .perfect), (1, .perfect),
      (3, .failed)]
    let c := enterAll { levels } calls
    (levels.map Level.id).Nodup ∧ Permitted { levels } calls ∧
    c.unlocked 3 = .ok true ∧ 3 ∉ c.completed ∧
    ∀ id, c.unlocked id = .ok true → id ∉ c.completed → id = 3 := by
  intro levels calls c
  have hd : (levels.map Level.id).Nodup := by decide
  have hp : Permitted { levels } calls := by decide +kernel
  obtain ⟨m, -, -, -, -, hone⟩ := enterAll_prefix hd hp
  have hthree : c.unlocked 3 = .ok true ∧ 3 ∉ c.completed := by decide +kernel
  exact ⟨hd, hp, hthree.1, hthree.2, fun id hu hn => hone id 3 hu hn hthree.1 hthree.2⟩

end GridRobot.Campaign
