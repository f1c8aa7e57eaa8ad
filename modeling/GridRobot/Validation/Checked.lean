import GridRobot.Validation.Fault

/-!
# Checked values

The result of a check is a value, or all faults that were found. Checks of several parts are
combined so that the faults of all parts are collected, in the order of the parts.
-/

namespace GridRobot

inductive Checked (α : Type) where
  | valid (a : α)
  | invalid (faults : List Fault)

namespace Checked

variable {α β : Type}

def map (f : α → β) : Checked α → Checked β
  | valid a => valid (f a)
  | invalid fs => invalid fs

/-- A function and its argument, both checked. -/
def apply : Checked (α → β) → Checked α → Checked β
  | valid f, valid a => valid (f a)
  | valid _, invalid gs => invalid gs
  | invalid fs, valid _ => invalid fs
  | invalid fs, invalid gs => invalid (fs ++ gs)

instance : Applicative Checked where
  pure := valid
  map := map
  seq f a := apply f (a ())

def faults : Checked α → List Fault
  | valid _ => []
  | invalid fs => fs

/-- A single fault in the value itself. -/
def fault (c : Cause) : Checked α := invalid [⟨[], c⟩]

/-- What a check of the part at a place says about the whole. -/
def under (p : Place) : Checked α → Checked α
  | valid a => valid a
  | invalid fs => invalid (fs.map (Fault.under p))

@[simp] theorem map_valid (f : α → β) (a : α) : f <$> valid a = valid (f a) := rfl
@[simp] theorem map_invalid (f : α → β) (fs : List Fault) : f <$> invalid fs = invalid fs := rfl
@[simp] theorem pure_eq (a : α) : (pure a : Checked α) = valid a := rfl
@[simp] theorem seq_eq (f : Checked (α → β)) (a : Checked α) : f <*> a = f.apply a := rfl

@[simp] theorem faults_map (f : α → β) (a : Checked α) : (f <$> a).faults = a.faults := by
  cases a <;> rfl

@[simp] theorem faults_apply (f : Checked (α → β)) (a : Checked α) :
    (f.apply a).faults = f.faults ++ a.faults := by
  cases f <;> cases a <;> simp [apply, faults]

@[simp] theorem faults_under (p : Place) (a : Checked α) :
    (a.under p).faults = a.faults.map (Fault.under p) := by
  cases a <;> rfl

end Checked

namespace Json

variable {α : Type}

/-- A field that must be there. -/
def required (members : List (String × Json)) (key : String) (check : Json → Checked α) :
    Checked α :=
  .under (.field key) <|
    match member? key members with
    | some v => check v
    | none => .fault .missing

/-- A field with a default. -/
def optional (members : List (String × Json)) (key : String) (default : α)
    (check : Json → Checked α) : Checked α :=
  match member? key members with
  | some v => .under (.field key) (check v)
  | none => .valid default

/-- Refuses all members but those declared. -/
def noOthers (members : List (String × Json)) (declared : List String) : Checked Unit :=
  match members.filter fun m => m.1 ∉ declared with
  | [] => .valid ()
  | extras => .invalid (extras.map fun m => ⟨[.field m.1], .extra⟩)

/-- Checks the items of an array that come after `n` others. -/
def checkItems (check : Json → Checked α) (n : Nat) : List Json → Checked (List α)
  | [] => .valid []
  | v :: vs => List.cons <$> (check v).under (.item n) <*> checkItems check (n + 1) vs

def checkArray (check : Json → Checked α) : Json → Checked (List α)
  | array vs => checkItems check 0 vs
  | _ => .fault .notArray

def checkInt (v : Json) : Checked Int :=
  match v.toInt with
  | .ok n => .valid n
  | .error e => .fault (.notInteger e)

def checkText : Json → Checked String
  | string s => .valid s
  | _ => .fault .notString

/-- A text that names one of the choices. -/
def checkName (ofName? : String → Option α) (choices : List String) (v : Json) : Checked α :=
  let named := match v with
    | string s => ofName? s
    | _ => none
  match named with
  | some a => .valid a
  | none => .fault (.notChoice (Cause.quoteAll choices))

end Json

end GridRobot
