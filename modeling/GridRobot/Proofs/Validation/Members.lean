import Mathlib.Data.List.Perm.Basic
import GridRobot.Proofs.Json.Grammar
import GridRobot.Proofs.Json.Nesting
import GridRobot.Proofs.Validation.Valid

/-!
# What the check of a field looks at

The check of a field looks at one member of an object, found by its key. So it does not notice
another order of the members, members of other keys, or another value of its own that passes or
fails it in the same way.
-/

namespace GridRobot.Json

variable {α : Type} {members members' : List (String × Json)} {key : String} {v v' : Json}

/-- Where no key is there twice, a member is found in any order. -/
theorem member?_perm (h : members.Perm members') (hd : (members.map Prod.fst).Nodup)
    (key : String) : member? key members = member? key members' := by
  induction h with
  | nil => rfl
  | cons m _ ih =>
    rw [member?, member?, List.lookup_cons, List.lookup_cons]
    split
    · rfl
    · exact ih (List.nodup_cons.mp hd).2
  | swap m m' ms =>
    obtain ⟨k, v⟩ := m
    obtain ⟨k', v'⟩ := m'
    have hne : k ≠ k' := fun he => (List.nodup_cons.mp hd).1 (he ▸ List.mem_cons_self)
    have hkeys : (k == k') = false := beq_false_of_ne hne
    by_cases hk : key = k
    · subst hk
      simp [member?, List.lookup_cons, hkeys]
    · have hk' : (key == k) = false := beq_false_of_ne hk
      simp [member?, List.lookup_cons, hk']
  | trans h _ ih ih' => rw [ih hd, ih' ((h.map Prod.fst).nodup_iff.mp hd)]

/-- One change of the members of an object that is not noticed where only the declared keys are
looked up: they change places, or one is added that is not declared. -/
inductive Unnoticed (declared : List String) :
    List (String × Json) → List (String × Json) → Prop
  | reorder {members members' : List (String × Json)} (perm : members.Perm members')
      (distinct : (members.map Prod.fst).Nodup) : Unnoticed declared members members'
  | add {before after : List (String × Json)} {key : String} {v : Json}
      (undeclared : key ∉ declared) :
      Unnoticed declared (before ++ after) (before ++ (key, v) :: after)

theorem Unnoticed.member?_eq {declared : List String} (h : Unnoticed declared members members')
    (hk : key ∈ declared) : member? key members = member? key members' := by
  cases h with
  | reorder perm distinct => exact member?_perm perm distinct key
  | @add before after k v undeclared =>
    have hne : (key == k) = false := by
      simpa using fun he : key = k => undeclared (he ▸ hk)
    simp [member?, List.lookup_append, List.lookup_cons, hne]

/-! ## The check of a field -/

theorem optional_congr (h : member? key members = member? key members') (default : α)
    (check : Json → Checked α) :
    optional members key default check = optional members' key default check := by
  rw [optional, h, ← optional]

theorem required_congr (h : member? key members = member? key members')
    (check : Json → Checked α) : required members key check = required members' key check := by
  rw [required, h, ← required]

theorem optional_insert_of_ne {key k : String} (hne : k ≠ key) (v : Json) (default : α)
    (check : Json → Checked α) :
    optional (insert key v members) k default check = optional members k default check := by
  unfold optional
  rw [member?_insert, if_neg hne]

theorem required_insert_of_ne {key k : String} (hne : k ≠ key) (v : Json)
    (check : Json → Checked α) :
    required (insert key v members) k check = required members k check := by
  unfold required
  rw [member?_insert, if_neg hne]

theorem optional_insert (hv : member? key members = some v) {check : Json → Checked α}
    (h : check v = check v') (default : α) :
    optional (insert key v' members) key default check = optional members key default check := by
  simp [optional, member?_insert, hv, h]

theorem optional_insert_eq_valid_iff (hv : member? key members = some v) {check : Json → Checked α}
    (h : ∀ x, check v = .valid x ↔ check v' = .valid x) {default x : α} :
    optional (insert key v' members) key default check = .valid x ↔
      optional members key default check = .valid x := by
  simp [optional, member?_insert, hv, Checked.under_eq_valid_iff, h]

theorem required_insert (hv : member? key members = some v) {check : Json → Checked α}
    (h : check v = check v') :
    required (insert key v' members) key check = required members key check := by
  simp [required, member?_insert, hv, h]

/-- A value of a key that is there leaves the keys as they are. -/
theorem map_fst_insert_of_member? {key : String} {w : Json} (h : member? key members = some w)
    (v : Json) : (insert key v members).map Prod.fst = members.map Prod.fst := by
  rw [map_fst_insert, if_pos]
  exact List.mem_map.mpr ⟨_, mem_of_member? h, rfl⟩

/-- Keys of all members meet a condition whatever the value of a key that is there. -/
theorem forall_keys_insert (hv : member? key members = some v) (v' : Json) (P : String → Prop) :
    (∀ m ∈ insert key v' members, P m.1) ↔ ∀ m ∈ members, P m.1 := by
  have hmap (ms : List (String × Json)) : (∀ m ∈ ms, P m.1) ↔ ∀ k ∈ ms.map Prod.fst, P k :=
    List.forall_mem_map.symm
  rw [hmap, hmap, map_fst_insert_of_member? hv]

/-- An item that is checked in the same way leaves the check of an array as it is. -/
theorem checkItems_congr {check : Json → Checked α} (h : check v = check v')
    (before after : List Json) (n : Nat) :
    checkItems check n (before ++ v :: after) = checkItems check n (before ++ v' :: after) := by
  induction before generalizing n with
  | nil => rw [List.nil_append, List.nil_append, checkItems, checkItems, h]
  | cons w before ih => rw [List.cons_append, List.cons_append, checkItems, checkItems, ih]

end GridRobot.Json
