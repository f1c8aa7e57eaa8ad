import GridRobot.Validation.Checked

/-!
# When a check of parts succeeds

A combined check is valid exactly if each of its parts is, and its value is combined from theirs.
-/

namespace GridRobot

namespace Checked

variable {α β : Type}

theorem map_eq_valid_iff {f : α → β} {a : Checked α} {b : β} :
    f <$> a = valid b ↔ ∃ x, a = valid x ∧ f x = b := by
  cases a <;> simp

theorem apply_eq_valid_iff {f : Checked (α → β)} {a : Checked α} {b : β} :
    f.apply a = valid b ↔ ∃ g x, f = valid g ∧ a = valid x ∧ g x = b := by
  cases f <;> cases a <;> simp [apply]

theorem under_eq_valid_iff {p : Place} {a : Checked α} {x : α} :
    a.under p = valid x ↔ a = valid x := by
  cases a <;> simp [under]

theorem fault_ne_valid {c : Cause} {x : α} : (fault c : Checked α) ≠ valid x := by
  simp [fault]

end Checked

namespace Json

variable {α : Type} {members : List (String × Json)}

theorem optional_eq_valid_iff {key : String} {default x : α} {check : Json → Checked α} :
    optional members key default check = .valid x ↔
      member? key members = none ∧ x = default ∨
        ∃ v, member? key members = some v ∧ check v = .valid x := by
  unfold optional
  cases member? key members with
  | none => simp [eq_comm]
  | some v => simp [Checked.under_eq_valid_iff]

theorem required_eq_valid_iff {key : String} {x : α} {check : Json → Checked α} :
    required members key check = .valid x ↔
      ∃ v, member? key members = some v ∧ check v = .valid x := by
  unfold required
  cases member? key members <;> simp [Checked.under_eq_valid_iff, Checked.fault_ne_valid]

theorem noOthers_eq_valid_iff {declared : List String} {u : Unit} :
    noOthers members declared = .valid u ↔ ∀ m ∈ members, m.1 ∈ declared := by
  unfold noOthers
  cases h : members.filter fun m => m.1 ∉ declared with
  | nil => simpa [List.filter_eq_nil_iff] using h
  | cons m ms =>
    have hm := List.mem_filter.mp (h ▸ List.mem_cons_self : m ∈ members.filter _)
    simp only [decide_eq_true_eq] at hm
    simp only [reduceCtorEq, false_iff]
    exact fun hall => hm.2 (hall m hm.1)

end Json

end GridRobot
