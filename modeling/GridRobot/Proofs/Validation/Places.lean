import GridRobot.Proofs.Validation.Valid
import GridRobot.Validation.Rejection

/-!
# Where faults are

What a check says about a part is the same wherever the part stands, except for the path that leads
to it. Faults of a part are moved by putting a path in front, or by giving its first item another
number.
-/

namespace GridRobot

namespace Fault

/-- The fault as seen from outside several places, the outermost first. -/
def within (places : List Place) (f : Fault) : Fault := { f with path := places ++ f.path }

/-- The fault in the only item of an array, when it is item `n` of another. -/
def reindex (n : Nat) (f : Fault) : Fault :=
  match f.path with
  | .item 0 :: path => { f with path := .item n :: path }
  | _ => f

@[simp] theorem reindex_under (n : Nat) (f : Fault) :
    (f.under (.item 0)).reindex n = f.under (.item n) := rfl

end Fault

namespace Rejection

/-- The faults that a text is rejected for, if it can be read. -/
def faults (r : Rejection) : List Fault :=
  match r.reason with
  | .notJson => []
  | .faults all => all

/-- The rejection of what holds the rejected part at some places. -/
def within (s : Subject) (places : List Place) (r : Rejection) : Rejection :=
  match r.reason with
  | .notJson => ⟨s, .notJson⟩
  | .faults all => ⟨s, .faults (all.map (Fault.within places))⟩

/-- The faults of what has been checked, if it is rejected for any. -/
def faultsOf {α : Type} : Except Rejection α → List Fault
  | .ok _ => []
  | .error r => r.faults

end Rejection

namespace Checked

variable {α β : Type}

theorem accept_eq_ok_iff {s : Subject} {a : Checked α} {x : α} :
    a.accept s = .ok x ↔ a = valid x := by
  cases a <;> simp [accept]

@[simp] theorem faultsOf_accept (s : Subject) (a : Checked α) :
    Rejection.faultsOf (a.accept s) = a.faults := by
  cases a <;> rfl

/-- What a check of the part at several places says about the whole, the outermost place first. -/
def within (places : List Place) : Checked α → Checked α
  | valid x => valid x
  | invalid fs => invalid (fs.map (Fault.within places))

theorem under_eq_within (p : Place) (a : Checked α) : a.under p = a.within [p] := by
  cases a <;> rfl

theorem under_within (p : Place) (ps : List Place) (a : Checked α) :
    (a.within ps).under p = a.within (p :: ps) := by
  cases a with
  | valid x => rfl
  | invalid fs =>
    simp only [within, under, List.map_map]
    rfl

/-- What is built around a part is accepted with the part, and rejected for its faults. -/
theorem accept_map_within (f : α → β) (places : List Place) (a : Checked α) (s t : Subject) :
    (f <$> a.within places).accept t =
      ((a.accept s).map f).mapError (Rejection.within t places) := by
  cases a <;> rfl

end Checked

/-- A text is accepted or rejected for its value. -/
theorem Json.accept_eq {α : Type} {s : Subject} {check : Json → Checked α} {text : String}
    {v : Json} (h : parse? nestingLimit text = some v) : accept s check text = (check v).accept s := by
  simp only [accept, h]

end GridRobot
