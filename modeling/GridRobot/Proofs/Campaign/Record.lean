import GridRobot.Campaign.Basic

/-!
# What recording a run does

A call that records a run is refused if no level has the id, changes nothing if the run was failed,
and otherwise enters the level in both books of the campaign: among the completed levels, and among
the best ratings. `record_cases` says so once; what a history of calls preserves is derived from it.
-/

namespace GridRobot.Campaign

variable {c : Campaign} {id j : Int} {r : Rating} {n : Nat}

/-- One of the levels has this id. -/
def Known (levels : List Level) (id : Int) : Prop := ∃ l ∈ levels, l.id = id

instance (levels : List Level) (id : Int) : Decidable (Known levels id) :=
  inferInstanceAs (Decidable (∃ l ∈ levels, l.id = id))

theorem index_eq_error_iff {e : UnknownLevel} :
    c.index id = .error e ↔ ¬Known c.levels id ∧ e = ⟨id⟩ := by
  unfold index
  cases h : c.levels.findIdx? fun l => l.id = id with
  | none =>
    have hunknown : ¬Known c.levels id := by simpa [Known] using h
    simp [hunknown, eq_comm]
  | some n =>
    obtain ⟨hlt, hid, -⟩ := List.findIdx?_eq_some_iff_getElem.mp h
    have hknown : Known c.levels id := ⟨_, List.getElem_mem hlt, by simpa using hid⟩
    simp [hknown]

/-- The index of an id is that of the first level that has it. -/
theorem index_eq_ok_iff :
    c.index id = .ok n ↔ ∃ l, c.levels[n]? = some l ∧ l.id = id ∧
      ∀ i < n, ∀ l', c.levels[i]? = some l' → l'.id ≠ id := by
  have hindex : c.index id = .ok n ↔ c.levels.findIdx? (fun l => l.id = id) = some n := by
    unfold index
    cases c.levels.findIdx? fun l => l.id = id <;> simp
  rw [hindex, List.findIdx?_eq_some_iff_getElem]
  constructor
  · rintro ⟨hlt, hid, hbefore⟩
    refine ⟨_, List.getElem?_eq_getElem hlt, by simpa using hid, ?_⟩
    intro i hi l' hl'
    obtain ⟨hlt', rfl⟩ := List.getElem?_eq_some_iff.mp hl'
    simpa using hbefore i hi
  · rintro ⟨l, hl, hid, hbefore⟩
    obtain ⟨hlt, rfl⟩ := List.getElem?_eq_some_iff.mp hl
    refine ⟨hlt, by simpa using hid, ?_⟩
    intro i hi
    simpa using hbefore i hi _ (List.getElem?_eq_getElem (by omega))

theorem exists_index (h : Known c.levels id) : ∃ n, c.index id = .ok n := by
  cases hi : c.index id with
  | ok n => exact ⟨n, rfl⟩
  | error e => exact absurd h (index_eq_error_iff.mp hi).1

/-- The level at an index is open: it is the first one, or the one before it has been completed. -/
def OpenAt (c : Campaign) : Nat → Prop
  | 0 => True
  | n + 1 => ∃ l, c.levels[n]? = some l ∧ l.id ∈ c.completed

theorem unlocked_iff : c.unlocked id = .ok true ↔ ∃ n, c.index id = .ok n ∧ c.OpenAt n := by
  unfold unlocked
  cases hi : c.index id with
  | error e => simp [bind, Except.bind]
  | ok n =>
    cases n with
    | zero => simp [bind, Except.bind, pure, Except.pure, OpenAt]
    | succ n =>
      cases hl : c.levels[n]? <;> simp [bind, Except.bind, pure, Except.pure, OpenAt, hl]

/-- The campaign after a level has been won once more. -/
def credit (c : Campaign) (id : Int) (r : Rating) : Campaign :=
  { c with
    completed := if id ∈ c.completed then c.completed else id :: c.completed
    best := (id, improve r (c.rating? id)) :: c.best.filter fun b => b.1 ≠ id }

@[simp] theorem levels_credit (c : Campaign) (id : Int) (r : Rating) :
    (c.credit id r).levels = c.levels := rfl

theorem mem_completed_credit : j ∈ (c.credit id r).completed ↔ j = id ∨ j ∈ c.completed := by
  simp only [credit]
  split
  · rename_i h
    exact ⟨.inr, fun hj => hj.elim (fun he => he ▸ h) fun hj => hj⟩
  · exact List.mem_cons

theorem mem_keys_credit : j ∈ (c.credit id r).best.map Prod.fst ↔
    j = id ∨ j ∈ c.best.map Prod.fst := by
  by_cases hj : j = id <;> simp [credit, hj]

/-- Taking the entries of one id out of a book does not touch the others. -/
theorem lookup_filter_ne {best : List (Int × Rating)} (h : j ≠ id) :
    (best.filter fun b => b.1 ≠ id).lookup j = best.lookup j := by
  induction best with
  | nil => rfl
  | cons b best ih =>
    by_cases hb : b.1 = id
    · have hj : (j == b.1) = false := by simpa [hb] using h
      rw [List.filter_cons_of_neg (by simpa using hb), ih, List.lookup_cons, hj]
    · rw [List.filter_cons_of_pos (by simpa using hb), List.lookup_cons, List.lookup_cons, ih]

/-- A credit for one level leaves the ratings of all others as they are. -/
theorem rating?_credit : (c.credit id r).rating? j =
    if j = id then some (improve r (c.rating? id)) else c.rating? j := by
  by_cases hj : j = id
  · simp [rating?, credit, hj]
  · have hne : (j == id) = false := by simpa using hj
    rw [if_neg hj, rating?, credit, List.lookup_cons, hne]
    exact lookup_filter_ne hj

/-- All that recording a run can do. -/
theorem record_cases (c : Campaign) (id : Int) (r : Rating) :
    (¬Known c.levels id ∧ c.record id r = .error ⟨id⟩) ∨
    (Known c.levels id ∧ r = .failed ∧ c.record id r = .ok c) ∨
    (Known c.levels id ∧ r ≠ .failed ∧ c.record id r = .ok (c.credit id r)) := by
  by_cases hk : Known c.levels id
  · obtain ⟨n, hn⟩ := exists_index hk
    by_cases hr : r = .failed
    · exact .inr (.inl ⟨hk, hr, by simp [record, hn, hr, bind, Except.bind, pure, Except.pure]⟩)
    · refine .inr (.inr ⟨hk, hr, ?_⟩)
      simp [record, hn, hr, bind, Except.bind, pure, Except.pure, credit]
  · have hi := index_eq_error_iff.mpr ⟨hk, rfl⟩
    exact .inl ⟨hk, by simp [record, hi, bind, Except.bind]⟩

theorem record_eq_error_iff {e : UnknownLevel} :
    c.record id r = .error e ↔ ¬Known c.levels id ∧ e = ⟨id⟩ := by
  rcases record_cases c id r with ⟨hk, he⟩ | ⟨hk, -, he⟩ | ⟨hk, -, he⟩ <;>
    simp [hk, he, eq_comm]

/-- A call that records a run: the id of its level, and its rating. -/
abbrev Call := Int × Rating

/-- The campaign after a call. One that is refused leaves it as it was. -/
def enter (c : Campaign) (call : Call) : Campaign :=
  match c.record call.1 call.2 with
  | .ok next => next
  | .error _ => c

def enterAll (c : Campaign) (calls : List Call) : Campaign := calls.foldl enter c

@[simp] theorem enterAll_nil (c : Campaign) : c.enterAll [] = c := rfl

@[simp] theorem enterAll_cons (c : Campaign) (call : Call) (calls : List Call) :
    c.enterAll (call :: calls) = (c.enter call).enterAll calls := rfl

theorem enter_of_ok {next : Campaign} (h : c.record id r = .ok next) : c.enter (id, r) = next := by
  simp only [enter, h]

theorem enter_of_error {e : UnknownLevel} (h : c.record id r = .error e) : c.enter (id, r) = c := by
  simp only [enter, h]

/-- Only a win of a level of the campaign changes anything. -/
theorem enter_cases (c : Campaign) (id : Int) (r : Rating) :
    (Known c.levels id ∧ r ≠ .failed ∧ c.enter (id, r) = c.credit id r) ∨
    (¬(Known c.levels id ∧ r ≠ .failed) ∧ c.enter (id, r) = c) := by
  rcases record_cases c id r with ⟨hk, he⟩ | ⟨-, hr, he⟩ | ⟨hk, hr, he⟩
  · exact .inr ⟨fun h => hk h.1, enter_of_error he⟩
  · exact .inr ⟨fun h => h.2 hr, enter_of_ok he⟩
  · exact .inl ⟨hk, hr, enter_of_ok he⟩

@[simp] theorem levels_enter (c : Campaign) (call : Call) : (c.enter call).levels = c.levels := by
  rcases enter_cases c call.1 call.2 with ⟨-, -, he⟩ | ⟨-, he⟩ <;> simp [he]

@[simp] theorem levels_enterAll (c : Campaign) (calls : List Call) :
    (c.enterAll calls).levels = c.levels := by
  induction calls generalizing c with
  | nil => rfl
  | cons call calls ih => rw [enterAll_cons, ih, levels_enter]

end GridRobot.Campaign
