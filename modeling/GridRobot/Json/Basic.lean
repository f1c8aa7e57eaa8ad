import GridRobot.Number.Double

/-!
# JSON values

Integers are kept apart from numbers written with a point or an exponent, which are doubles. The
members of an object keep their order; of two with one key the first counts.
-/

namespace GridRobot

inductive Json where
  | null
  | bool (b : Bool)
  | integer (n : Int)
  | number (d : Double)
  | string (s : String)
  | array (items : List Json)
  | object (members : List (String × Json))

namespace Json

mutual

/-- How deep arrays and objects that hold something nest in a value. Empty ones do not count. -/
def depth : Json → Nat
  | array items => depthItems items
  | object members => depthMembers members
  | _ => 0

def depthItems : List Json → Nat
  | [] => 0
  | v :: vs => max (depth v + 1) (depthItems vs)

def depthMembers : List (String × Json) → Nat
  | [] => 0
  | (_, v) :: ms => max (depth v + 1) (depthMembers ms)

end

/-- Gives a key a value: a key that is there keeps its place, a new one goes to the end. -/
def insert (key : String) (value : Json) : List (String × Json) → List (String × Json)
  | [] => [(key, value)]
  | (k, v) :: ms => if k = key then (k, value) :: ms else (k, v) :: insert key value ms

theorem map_fst_insert (key : String) (value : Json) (ms : List (String × Json)) :
    (insert key value ms).map Prod.fst =
      if key ∈ ms.map Prod.fst then ms.map Prod.fst else ms.map Prod.fst ++ [key] := by
  induction ms with
  | nil => simp [insert]
  | cons m ms ih =>
    obtain ⟨k, v⟩ := m
    simp only [insert]
    split
    · rename_i h; subst h; simp
    · rename_i h
      have : ¬ key = k := fun e => h e.symm
      simp only [List.map_cons, ih, List.mem_cons, this, false_or]
      split <;> simp

/-- The value of a key. -/
def member? (key : String) (members : List (String × Json)) : Option Json := members.lookup key

theorem lookup_insert (key k : String) (value : Json) (ms : List (String × Json)) :
    (insert key value ms).lookup k = if k = key then some value else ms.lookup k := by
  induction ms with
  | nil => simp [insert, List.lookup_cons]; split <;> simp_all
  | cons m ms ih =>
    obtain ⟨k', v⟩ := m
    simp only [insert]
    split
    · rename_i h; subst h
      by_cases hk : k = k'
      · simp [hk]
      · have hb : (k == k') = false := by simpa using hk
        simp [List.lookup_cons, hk, hb]
    · rename_i h
      by_cases hk : k = k'
      · subst hk; simp [h]
      · have hb : (k == k') = false := by simpa using hk
        simp [List.lookup_cons, hb, ih]

theorem sizeOf_member?_lt {key : String} {members : List (String × Json)} {v : Json}
    (h : member? key members = some v) : sizeOf v < sizeOf members := by
  induction members with
  | nil => simp [member?] at h
  | cons m ms ih =>
    obtain ⟨k, w⟩ := m
    simp only [member?, List.lookup_cons] at h
    split at h
    · cases h; simp only [List.cons.sizeOf_spec, Prod.mk.sizeOf_spec]; omega
    · have := ih h; simp only [List.cons.sizeOf_spec]; omega

end Json

end GridRobot
