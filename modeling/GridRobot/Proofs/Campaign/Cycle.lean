import Mathlib.Data.Nat.ModEq
import Mathlib.Order.Interval.Finset.Nat
import GridRobot.Proofs.Campaign.Unlocking
import GridRobot.Proofs.Lookup.Table

/-!
# Round the campaign

The next level of a campaign is the one behind it, and the first one follows the last. If no two
levels share an id, this is one cycle through all of them: a step adds one to the index of a level,
modulo the number of levels, so `k` steps add `k`, and what is true of a cycle is read off the
indexes.
-/

namespace GridRobot

namespace Campaign

/-- Counted round the levels, every number is the index of a level, if there is any level. -/
theorem exists_getElem?_mod {levels : List Level} {i : Nat} {l : Level} (hl : levels[i]? = some l)
    (k : Nat) : ∃ l', levels[k % levels.length]? = some l' := by
  have hpos : 0 < levels.length := Nat.zero_lt_of_lt (List.getElem?_eq_some_iff.mp hl).1
  exact ⟨_, List.getElem?_eq_getElem (Nat.mod_lt k hpos)⟩

/-- All that asking for the next level can do. -/
theorem next_cases (c : Campaign) (id : Int) :
    (¬Known c.levels id ∧ c.index id = .error ⟨id⟩ ∧ c.next id = .error ⟨id⟩) ∨
    (Known c.levels id ∧ ∃ n l, c.index id = .ok n ∧
      c.levels[(n + 1) % c.levels.length]? = some l ∧ c.next id = .ok l.id) := by
  by_cases hk : Known c.levels id
  · obtain ⟨n, hn⟩ := exists_index hk
    obtain ⟨found, hfound, -, -⟩ := index_eq_ok_iff.mp hn
    obtain ⟨l, hl⟩ := exists_getElem?_mod hfound (n + 1)
    refine .inr ⟨hk, n, l, hn, hl, ?_⟩
    simp only [next, hn, hl, bind, Except.bind, pure, Except.pure, Option.map_some,
      Option.getD_some]
  · have hi : c.index id = .error ⟨id⟩ := index_eq_error_iff.mpr ⟨hk, rfl⟩
    exact .inl ⟨hk, hi, by simp only [next, hi, bind, Except.bind]⟩

theorem next_eq_error_iff {c : Campaign} {id : Int} {e : UnknownLevel} :
    c.next id = .error e ↔ ¬Known c.levels id ∧ e = ⟨id⟩ := by
  rcases next_cases c id with ⟨hk, -, he⟩ | ⟨hk, _, _, -, -, he⟩ <;> simp [hk, he, eq_comm]

end Campaign

namespace Lookup

/-- What asking for the next level can end in, apart from an answer. -/
inductive NextFault where
  | unknown (e : UnknownLevel)
  | zeroDivisor
  | misuse (u : Misuse)
  deriving DecidableEq

/-- The remainder of a division. Nothing can be divided by zero. -/
def remainder (a b : Nat) : Except NextFault Nat :=
  if b = 0 then .error .zeroDivisor else .ok (a % b)

/-- The id of the next level, by a division and a lookup that can fail. -/
def next (c : Campaign) (id : Int) : Except NextFault Int := do
  let n ← (c.index id).mapError .unknown
  let k ← remainder (n + 1) c.levels.length
  let l ← (item c.levels k).mapError .misuse
  return l.id

/-- Neither the division nor the lookup fails: without levels no id is found to begin with. -/
theorem next_eq (c : Campaign) (id : Int) : next c id = (c.next id).mapError .unknown := by
  rcases c.next_cases id with ⟨-, hi, he⟩ | ⟨-, n, l, hn, hl, he⟩
  · simp only [next, hi, he, bind, Except.bind, Except.mapError]
  · have hlt : (n + 1) % c.levels.length < c.levels.length := (List.getElem?_eq_some_iff.mp hl).1
    have hne : c.levels.length ≠ 0 := by omega
    have hitem : item c.levels ((n + 1) % c.levels.length : Nat) = .ok l :=
      item_of_nonneg (Int.natCast_nonneg _) hl
    simp only [next, remainder, hn, he, hitem, if_neg hne, bind, Except.bind, pure, Except.pure,
      Except.mapError]

end Lookup

namespace Campaign

/-- The id that so many steps lead to, each of them to the next level. -/
def ahead (c : Campaign) (id : Int) : Nat → Except UnknownLevel Int
  | 0 => .ok id
  | k + 1 => do c.next (← c.ahead id k)

section Distinct

variable {c : Campaign} {l l' : Level} {i i' k : Nat} (hd : (c.levels.map Level.id).Nodup)

include hd

theorem next_of_getElem? (hl : c.levels[i]? = some l)
    (hl' : c.levels[(i + 1) % c.levels.length]? = some l') : c.next l.id = .ok l'.id := by
  have hi : c.index l.id = .ok i := (index_eq_ok_iff_of_distinct hd rfl).mpr ⟨l, hl, rfl⟩
  rcases c.next_cases l.id with ⟨-, he, -⟩ | ⟨-, n, following, hn, hfollowing, he⟩
  · cases hi.symm.trans he
  · obtain rfl : i = n := Except.ok.inj (hi.symm.trans hn)
    obtain rfl : l' = following := Option.some_inj.mp (hl'.symm.trans hfollowing)
    exact he

/-- Steps add up on the indexes, modulo the number of levels. -/
theorem ahead_of_getElem? (hl : c.levels[i]? = some l)
    (hl' : c.levels[(i + k) % c.levels.length]? = some l') : c.ahead l.id k = .ok l'.id := by
  induction k generalizing l' with
  | zero =>
    rw [Nat.add_zero, Nat.mod_eq_of_lt (List.getElem?_eq_some_iff.mp hl).1, hl] at hl'
    rw [ahead, Option.some_inj.mp hl']
  | succ k ih =>
    obtain ⟨before, hbefore⟩ := exists_getElem?_mod hl (i + k)
    rw [ahead, ih hbefore]
    refine next_of_getElem? hd hbefore ?_
    rwa [Nat.mod_add_mod, Nat.add_assoc]

/-- So many steps lead from one level to another exactly if they lead from index to index. -/
theorem ahead_eq_ok_iff (hl : c.levels[i]? = some l) (hl' : c.levels[i']? = some l') :
    c.ahead l.id k = .ok l'.id ↔ (i + k) % c.levels.length = i' := by
  constructor
  · intro h
    obtain ⟨reached, hreached⟩ := exists_getElem?_mod hl (i + k)
    have hid := Except.ok.inj ((ahead_of_getElem? hd hl hreached).symm.trans h)
    exact index_unique hd hreached hl' hid
  · rintro rfl
    exact ahead_of_getElem? hd hl hl'

end Distinct

/-- Counting on from any number, each remainder is met once in a round. -/
theorem existsUnique_add_mod_eq {n r : Nat} (hr : r < n) (i m : Nat) :
    ∃! k, m ≤ k ∧ k < m + n ∧ (i + k) % n = r := by
  have hmem : r ∈ (Finset.Ico (i + m) (i + m + n)).image (· % n) := by
    rw [Nat.image_Ico_mod]
    exact Finset.mem_range.mpr hr
  obtain ⟨x, hx, hxr⟩ := Finset.mem_image.mp hmem
  have hround := Finset.mem_Ico.mp hx
  refine ⟨x - i, ⟨by omega, by omega, ?_⟩, ?_⟩
  · rwa [Nat.add_sub_cancel' (by omega)]
  · rintro k ⟨hm, hlt, hkr⟩
    have hk : i + k ∈ Finset.Ico (i + m) (i + m + n) := Finset.mem_Ico.mpr (by omega)
    have hsame : i + k = x := Nat.mod_injOn_Ico (i + m) n hk hx (hkr.trans hxr.symm)
    omega

/-- Asking for the next level divides by no zero and looks for no level that is not there, and it is
refused exactly for the ids that no level has, which are all ids if there are no levels. If no two
levels share an id, it can be repeated any number of times from the id of any level: in any round of
as many steps as there are levels it comes by the id of each level once, and it is back at the start
after whole rounds and never else. -/
theorem next_cycle (c : Campaign) :
    (∀ id, Lookup.next c id = (c.next id).mapError .unknown) ∧
    (∀ id e, c.next id = .error e ↔ ¬Known c.levels id ∧ e = ⟨id⟩) ∧
    ((c.levels.map Level.id).Nodup → ∀ id, Known c.levels id →
      let n := c.levels.length
      (∀ k, ∃ j, c.ahead id k = .ok j ∧ Known c.levels j) ∧
      (∀ j, Known c.levels j → ∀ m, ∃! k, m ≤ k ∧ k < m + n ∧ c.ahead id k = .ok j) ∧
      ∀ k, c.ahead id k = .ok id ↔ n ∣ k) := by
  refine ⟨Lookup.next_eq c, fun id e => next_eq_error_iff, ?_⟩
  rintro hd id ⟨l, hmem, rfl⟩ n
  obtain ⟨i, hl⟩ := List.mem_iff_getElem?.mp hmem
  have hi : i < n := (List.getElem?_eq_some_iff.mp hl).1
  refine ⟨?_, ?_, ?_⟩
  · intro k
    obtain ⟨reached, hreached⟩ := exists_getElem?_mod hl (i + k)
    exact ⟨_, ahead_of_getElem? hd hl hreached, reached, List.mem_of_getElem? hreached, rfl⟩
  · rintro j ⟨l', hmem', rfl⟩ m
    obtain ⟨i', hl'⟩ := List.mem_iff_getElem?.mp hmem'
    simp only [ahead_eq_ok_iff hd hl hl']
    exact existsUnique_add_mod_eq (List.getElem?_eq_some_iff.mp hl').1 i m
  · intro k
    rw [ahead_eq_ok_iff hd hl hl]
    calc (i + k) % n = i ↔ i + k ≡ i [MOD n] := by rw [Nat.ModEq, Nat.mod_eq_of_lt hi]
      _ ↔ n ∣ k := Nat.add_modEq_left_iff

/-- From the second built-in level three steps lead back and two do not, and one of the first three
leads to the first level. Without levels no id has a next level. -/
theorem next_cycle_builtin :
    let c : Campaign := { levels := builtin }
    (c.levels.map Level.id).Nodup ∧ Known c.levels 2 ∧ Known c.levels 1 ∧
    c.ahead 2 3 = .ok 2 ∧ c.ahead 2 2 ≠ .ok 2 ∧
    (∃! k, 1 ≤ k ∧ k < 1 + 3 ∧ c.ahead 2 k = .ok 1) ∧
    ¬Known [] 2 ∧ Lookup.next { levels := [] } 2 = .error (.unknown ⟨2⟩) := by
  intro c
  have hd : (c.levels.map Level.id).Nodup := by decide
  have hknown : Known c.levels 2 ∧ Known c.levels 1 ∧ ¬Known [] 2 := by decide
  obtain ⟨-, -, hcycle⟩ := next_cycle c
  obtain ⟨-, honce, hback⟩ := hcycle hd 2 hknown.1
  have hreturn : c.ahead 2 3 = .ok 2 := (hback 3).mpr (by decide)
  have helsewhere : c.ahead 2 2 ≠ .ok 2 := mt (hback 2).mp (by decide)
  have hrefused : Lookup.next { levels := [] } 2 = .error (.unknown ⟨2⟩) := by
    obtain ⟨hlookup, hunknown, -⟩ := next_cycle { levels := [] }
    rw [hlookup, (hunknown 2 ⟨2⟩).mpr ⟨hknown.2.2, rfl⟩]
    rfl
  exact ⟨hd, hknown.1, hknown.2.1, hreturn, helsewhere, honce 1 hknown.2.1 1, hknown.2.2, hrefused⟩

end Campaign

end GridRobot
