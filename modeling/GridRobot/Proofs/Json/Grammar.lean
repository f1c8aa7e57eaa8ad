import Mathlib.Data.List.Induction
import GridRobot.Proofs.Json.Nesting

/-!
# The grammar of JSON

Which tokens spell which value, said without a reader. The main statement is that the reader accepts
what the grammar derives and nothing else. In one direction the reader is followed along a
derivation; in the other, `Reader.HasRead` says at each moment which parts of a derivation the
tokens read so far have completed, and the last of these moments completes the value.
-/

namespace GridRobot.Json

/-- The members of an object, from those of its text: a later value of a key takes the place of an
earlier one. -/
def gather (ms : List (String × Json)) : List (String × Json) :=
  ms.foldl (fun gathered m => insert m.1 m.2 gathered) []

@[simp] theorem gather_nil : gather [] = [] := rfl

@[simp] theorem gather_concat (ms : List (String × Json)) (k : String) (v : Json) :
    gather (ms ++ [(k, v)]) = insert k v (gather ms) := by
  simp [gather, List.foldl_append]

theorem member?_insert (key k : String) (v : Json) (ms : List (String × Json)) :
    member? k (insert key v ms) = if k = key then some v else member? k ms :=
  lookup_insert key k v ms

/-- Of several values of a key the last one counts. -/
theorem member?_gather (k : String) (ms : List (String × Json)) :
    member? k (gather ms) = member? k ms.reverse := by
  induction ms using List.reverseRecOn with
  | nil => rfl
  | append_singleton ms m ih =>
    obtain ⟨k', v⟩ := m
    have hcons : member? k ((k', v) :: ms.reverse) =
        if k = k' then some v else member? k ms.reverse := by
      by_cases hk : k = k'
      · simp [member?, hk]
      · simp [member?, List.lookup_cons, beq_eq_false_iff_ne.mpr hk, hk]
    rw [gather_concat, member?_insert, List.reverse_concat, ih, hcons]

section Grammar

variable (limit : Nat)

mutual

/-- The tokens of a value that has `d` containers around it. A container that holds something is
admitted inside fewer than `limit` others, an empty one anywhere. -/
inductive Spells : Nat → List Token → Json → Prop
  | scalar {d : Nat} (v : Json) : Spells d [.scalar v] v
  | emptyArray {d : Nat} : Spells d [.openArray, .closeArray] (.array [])
  | emptyObject {d : Nat} : Spells d [.openObject, .closeObject] (.object [])
  | array {d : Nat} {ts us : List Token} {vs : List Json} {v : Json} (room : d < limit)
      (front : SpellsItems (d + 1) ts vs) (last : Spells (d + 1) us v) :
      Spells d (.openArray :: (ts ++ us ++ [.closeArray])) (.array (vs ++ [v]))
  | object {d : Nat} {ts us : List Token} {ms : List (String × Json)} {k : String} {v : Json}
      (room : d < limit) (front : SpellsMembers (d + 1) ts ms) (last : Spells (d + 1) us v) :
      Spells d (.openObject :: (ts ++ .scalar (.string k) :: .colon :: us ++ [.closeObject]))
        (.object (gather (ms ++ [(k, v)])))

/-- The tokens of items in front of another one, each with a comma behind it. -/
inductive SpellsItems : Nat → List Token → List Json → Prop
  | none {d : Nat} : SpellsItems d [] []
  | more {d : Nat} {ts us : List Token} {vs : List Json} {v : Json} (front : SpellsItems d ts vs)
      (last : Spells d us v) : SpellsItems d (ts ++ us ++ [.comma]) (vs ++ [v])

/-- The tokens of members in front of another one, each with a comma behind it. -/
inductive SpellsMembers : Nat → List Token → List (String × Json) → Prop
  | none {d : Nat} : SpellsMembers d [] []
  | more {d : Nat} {ts us : List Token} {ms : List (String × Json)} {k : String} {v : Json}
      (front : SpellsMembers d ts ms) (last : Spells d us v) :
      SpellsMembers d (ts ++ .scalar (.string k) :: .colon :: us ++ [.comma]) (ms ++ [(k, v)])

end

end Grammar

variable {limit : Nat}

theorem Spells.head {d : Nat} {ts : List Token} {v : Json} (h : Spells limit d ts v) :
    ∃ t us, ts = t :: us ∧ t ≠ .closeArray := by
  cases h <;> exact ⟨_, _, rfl, by simp⟩

/-! ## What the grammar derives is read -/

namespace Reader

/-- What an array holds so far, and a further item behind a comma. -/
theorem run_comma (limit : Nat) (around : List Open) (v : Json) (items : List Json)
    (ts : List Token) :
    run limit (.done v (.array items :: around)) (.comma :: ts) =
      run limit (.value (.array (v :: items) :: around)) ts := rfl

/-- A key of an object in front of its value; the first key needs room for the object. -/
theorem run_first_key {around : List Open} (room : around.length < limit) (k : String)
    (ts : List Token) :
    run limit (.member around) (.scalar (.string k) :: .colon :: ts) =
      run limit (.value (.object [] k :: around)) ts := by
  have hkey : step limit (.member around) (.scalar (.string k)) = some (.colon [] k around) :=
    if_pos room
  rw [run_cons, hkey, Option.bind_some]
  rfl

end Reader

mutual

/-- The reader takes the tokens of a value as that value. -/
theorem Spells.run {d : Nat} {ts : List Token} {v : Json} (h : Spells limit d ts v)
    (around : List Open) (hd : around.length = d) :
    Reader.run limit (.value around) ts = some (.done v around) := by
  cases h with
  | scalar v => rfl
  | emptyArray => rfl
  | emptyObject => rfl
  | @array _ ts us vs v room front last =>
    have hopen : Reader.run limit (.value around) (.openArray :: (ts ++ us ++ [.closeArray])) =
        Reader.run limit (.item around) (ts ++ us ++ [.closeArray]) := rfl
    have hclose : Reader.run limit (.done v (.array vs.reverse :: around)) [.closeArray] =
        some (.done (.array (v :: vs.reverse).reverse) around) := rfl
    have hlast := last.run (.array vs.reverse :: around) (by simp [hd])
    obtain ⟨t, us', hus, ht⟩ := last.head
    rw [hus] at hlast hopen ⊢
    rw [hopen, List.append_assoc, List.cons_append, front.run (by omega) (by omega) ht,
      ← List.cons_append, Reader.run_append, hlast, Option.bind_some, hclose]
    simp
  | @object _ ts us ms k v room front last =>
    have hopen : Reader.run limit (.value around)
        (.openObject :: (ts ++ .scalar (.string k) :: .colon :: us ++ [.closeObject])) =
        Reader.run limit (.member around)
          (ts ++ .scalar (.string k) :: .colon :: us ++ [.closeObject]) := rfl
    have hclose : Reader.run limit (.done v (.object (gather ms) k :: around)) [.closeObject] =
        some (.done (.object (insert k v (gather ms))) around) := rfl
    have hlast := last.run (.object (gather ms) k :: around) (by simp [hd])
    rw [hopen, List.append_assoc, List.cons_append, List.cons_append,
      front.run (by omega) (by omega), Reader.run_append, hlast, Option.bind_some, hclose,
      gather_concat]
termination_by ts.length

/-- Behind items and their commas the reader is where it is behind an opened array. -/
theorem SpellsItems.run {d : Nat} {ts : List Token} {vs : List Json} (h : SpellsItems limit d ts vs)
    {around : List Open} (hd : around.length + 1 = d) (room : around.length < limit) {t : Token}
    (ht : t ≠ .closeArray) (us : List Token) :
    Reader.run limit (.item around) (ts ++ t :: us) =
      Reader.run limit (.value (.array vs.reverse :: around)) (t :: us) := by
  cases h with
  | none =>
    rw [List.nil_append, Reader.run_cons, Reader.run_cons, step_item ht, if_pos room]
    rfl
  | @more _ ts us' vs v front last =>
    have hlast := last.run (.array vs.reverse :: around) (by simp [hd])
    obtain ⟨t', us'', hus, ht'⟩ := last.head
    have hsplit : ts ++ us' ++ [.comma] ++ t :: us =
        ts ++ t' :: (us'' ++ .comma :: t :: us) := by simp [hus]
    rw [hus] at hlast
    rw [hsplit, front.run hd room ht', ← List.cons_append, Reader.run_append, hlast,
      Option.bind_some, Reader.run_comma, List.reverse_concat]
termination_by ts.length

/-- Behind members and their commas a key is taken as it is behind an opened object. -/
theorem SpellsMembers.run {d : Nat} {ts : List Token} {ms : List (String × Json)}
    (h : SpellsMembers limit d ts ms) {around : List Open} (hd : around.length + 1 = d)
    (room : around.length < limit) (k : String) (us : List Token) :
    Reader.run limit (.member around) (ts ++ .scalar (.string k) :: .colon :: us) =
      Reader.run limit (.value (.object (gather ms) k :: around)) us := by
  cases h with
  | none => exact Reader.run_first_key room k us
  | @more _ ts us' ms k' v front last =>
    have hlast := last.run (.object (gather ms) k' :: around) (by simp [hd])
    have hsplit : ts ++ .scalar (.string k') :: .colon :: us' ++ [.comma] ++
        .scalar (.string k) :: .colon :: us =
        ts ++ .scalar (.string k') :: .colon ::
          (us' ++ .comma :: .scalar (.string k) :: .colon :: us) := by simp
    rw [hsplit, front.run hd room, Reader.run_append, hlast, Option.bind_some, run_key,
      gather_concat]
termination_by ts.length

end

/-! ## What is read is derived -/

section Read

variable (limit)

/-- Tokens that open containers, up to where a value is due. -/
inductive Opens : List Open → List Token → Prop
  | none : Opens [] []
  | array {around : List Open} {pre ts : List Token} {vs : List Json}
      (outer : Opens around pre) (room : around.length < limit)
      (front : SpellsItems limit (around.length + 1) ts vs) :
      Opens (.array vs.reverse :: around) (pre ++ .openArray :: ts)
  | object {around : List Open} {pre ts : List Token} {ms : List (String × Json)} {k : String}
      (outer : Opens around pre) (room : around.length < limit)
      (front : SpellsMembers limit (around.length + 1) ts ms) :
      Opens (.object (gather ms) k :: around)
        (pre ++ .openObject :: (ts ++ [.scalar (.string k), .colon]))

/-- What the tokens read so far amount to when the reader is in a state. -/
def Reader.HasRead : Reader → List Token → Prop
  | value around, ts => Opens limit around ts
  | item around, ts => ∃ pre, Opens limit around pre ∧ ts = pre ++ [.openArray]
  | member around, ts => ∃ pre, Opens limit around pre ∧ ts = pre ++ [.openObject]
  | key members around, ts => ∃ pre us ms, Opens limit around pre ∧ around.length < limit ∧
      SpellsMembers limit (around.length + 1) us ms ∧ members = gather ms ∧
      ts = pre ++ .openObject :: us
  | colon members k around, ts => ∃ pre us ms, Opens limit around pre ∧ around.length < limit ∧
      SpellsMembers limit (around.length + 1) us ms ∧ members = gather ms ∧
      ts = pre ++ .openObject :: (us ++ [.scalar (.string k)])
  | done v around, ts => ∃ pre us, Opens limit around pre ∧ Spells limit around.length us v ∧
      ts = pre ++ us

end Read

namespace Reader

variable {s s' : Reader} {t : Token} {ts : List Token}

theorem hasRead_start {around : List Open} (h : Opens limit around ts)
    (hs : start around t = some s') : s'.HasRead limit (ts ++ [t]) := by
  cases t with
  | scalar v => cases hs; exact ⟨ts, _, h, .scalar v, rfl⟩
  | openArray => cases hs; exact ⟨ts, h, rfl⟩
  | openObject => cases hs; exact ⟨ts, h, rfl⟩
  | _ => cases hs

/-- A token that the reader takes carries the derivation on. -/
theorem hasRead_step (h : s.HasRead limit ts) (hs : step limit s t = some s') :
    s'.HasRead limit (ts ++ [t]) := by
  cases s with
  | value around => exact hasRead_start h hs
  | item around =>
    obtain ⟨pre, houter, rfl⟩ := h
    by_cases hclose : t = .closeArray
    · subst hclose
      cases hs
      exact ⟨pre, _, houter, .emptyArray, by simp⟩
    · rw [step_item hclose] at hs
      split at hs
      · rename_i room
        exact hasRead_start (houter.array room .none) hs
      · cases hs
  | member around =>
    obtain ⟨pre, houter, rfl⟩ := h
    cases t with
    | closeObject =>
      cases hs
      exact ⟨pre, _, houter, .emptyObject, by simp⟩
    | scalar v =>
      cases v with
      | string k =>
        have hs' :
            (if around.length < limit then some (colon [] k around) else none) = some s' := hs
        split at hs'
        · rename_i room
          cases hs'
          exact ⟨pre, [], [], houter, room, .none, rfl, by simp⟩
        · cases hs'
      | _ => cases hs
    | _ => cases hs
  | key members around =>
    obtain ⟨pre, us, ms, houter, room, front, hms, rfl⟩ := h
    cases t with
    | scalar v =>
      cases v with
      | string k =>
        cases hs
        exact ⟨pre, us, ms, houter, room, front, hms, by simp⟩
      | _ => cases hs
    | _ => cases hs
  | colon members k around =>
    obtain ⟨pre, us, ms, houter, room, front, rfl, rfl⟩ := h
    cases t with
    | colon =>
      cases hs
      have hopens := houter.object (k := k) room front
      simpa [HasRead] using hopens
    | _ => cases hs
  | done v around =>
    obtain ⟨pre, us, hopens, hv, rfl⟩ := h
    cases hopens with
    | none => cases t <;> cases hs
    | @array around pre front vs houter room hfront =>
      cases t with
      | comma =>
        cases hs
        have hopens := houter.array room (hfront.more hv)
        simpa [HasRead] using hopens
      | closeArray =>
        cases hs
        exact ⟨pre, _, houter, by simpa using Spells.array room hfront hv, by simp⟩
      | _ => cases hs
    | @object around pre front ms k houter room hfront =>
      cases t with
      | comma =>
        cases hs
        exact ⟨pre, _, _, houter, room, hfront.more (k := k) hv, by simp, by simp⟩
      | closeObject =>
        cases hs
        exact ⟨pre, _, houter, by simpa using Spells.object (k := k) room hfront hv, by simp⟩
      | _ => cases hs

theorem hasRead_run {us : List Token} (h : s.HasRead limit ts) (hs : run limit s us = some s') :
    s'.HasRead limit (ts ++ us) := by
  induction us generalizing s ts with
  | nil => cases hs; simpa using h
  | cons u us ih =>
    rw [run_cons, Option.bind_eq_some_iff] at hs
    obtain ⟨next, hstep, hrun⟩ := hs
    simpa using ih (hasRead_step h hstep) hrun

end Reader

/-- A reader accepts exactly the tokens that spell a value within its limit. -/
theorem ofTokens?_eq_some_iff {ts : List Token} {v : Json} :
    ofTokens? limit ts = some v ↔ Spells limit 0 ts v := by
  rw [ofTokens?, Option.bind_eq_bind, Option.bind_eq_some_iff]
  constructor
  · rintro ⟨s, hrun, hs⟩
    have hstart : (Reader.value []).HasRead limit [] := Opens.none
    have hend := Reader.hasRead_run hstart hrun
    split at hs
    · cases hs
      obtain ⟨pre, us, hopens, hspells, htokens⟩ := hend
      cases hopens
      rw [List.nil_append, List.nil_append] at htokens
      exact htokens ▸ hspells
    · cases hs
  · intro h
    exact ⟨_, h.run [] rfl, rfl⟩

/-- A text is read as a value exactly if its tokens spell the value. -/
theorem parse?_eq_some_iff {text : String} {v : Json} :
    parse? limit text = some v ↔ ∃ ts, tokens? text.toList = some ts ∧ Spells limit 0 ts v := by
  rw [parse?, Option.bind_eq_bind, Option.bind_eq_some_iff]
  exact exists_congr fun ts => and_congr_right fun _ => ofTokens?_eq_some_iff

/-! ## How deep brackets nest -/

mutual

/-- Brackets nest one deeper than the limit at most: a container inside as many others as the limit
admits holds nothing. -/
theorem Spells.deepest_le {d : Nat} {ts : List Token} {v : Json} (h : Spells limit d ts v)
    (hd : d ≤ limit) (rest : List Token) :
    deepest d (ts ++ rest) ≤ max (limit + 1) (deepest d rest) := by
  cases h with
  | scalar v =>
    have hflat : deepest d (.scalar v :: rest) = deepest d rest := deepest_flat rfl rest
    rw [List.singleton_append, hflat]
    exact Nat.le_max_right _ _
  | emptyArray | emptyObject =>
    rw [List.cons_append, deepest_open rfl, List.singleton_append, deepest_close rfl]
    omega
  | @array _ ts us vs v room front last =>
    have hfront := front.deepest_le room (us ++ .closeArray :: rest)
    have hlast := last.deepest_le room (.closeArray :: rest)
    have hclose : deepest (d + 1) (.closeArray :: rest) = max (d + 1) (deepest d rest) :=
      deepest_close rfl rest
    rw [List.cons_append, deepest_open rfl, List.append_assoc, List.append_assoc,
      List.singleton_append]
    omega
  | @object _ ts us ms k v room front last =>
    have hfront := front.deepest_le room
      (.scalar (.string k) :: .colon :: (us ++ .closeObject :: rest))
    have hlast := last.deepest_le room (.closeObject :: rest)
    have hclose : deepest (d + 1) (.closeObject :: rest) = max (d + 1) (deepest d rest) :=
      deepest_close rfl rest
    rw [deepest_key] at hfront
    rw [List.cons_append, deepest_open rfl, List.append_assoc, List.append_assoc,
      List.singleton_append, List.cons_append, List.cons_append]
    omega
termination_by ts.length

theorem SpellsItems.deepest_le {d : Nat} {ts : List Token} {vs : List Json}
    (h : SpellsItems limit d ts vs) (hd : d ≤ limit) (rest : List Token) :
    deepest d (ts ++ rest) ≤ max (limit + 1) (deepest d rest) := by
  cases h with
  | none => exact Nat.le_max_right _ _
  | @more _ ts us vs v front last =>
    have hfront := front.deepest_le hd (us ++ .comma :: rest)
    have hlast := last.deepest_le hd (.comma :: rest)
    have hcomma : deepest d (.comma :: rest) = deepest d rest := deepest_flat rfl rest
    rw [List.append_assoc, List.append_assoc, List.singleton_append]
    omega
termination_by ts.length

theorem SpellsMembers.deepest_le {d : Nat} {ts : List Token} {ms : List (String × Json)}
    (h : SpellsMembers limit d ts ms) (hd : d ≤ limit) (rest : List Token) :
    deepest d (ts ++ rest) ≤ max (limit + 1) (deepest d rest) := by
  cases h with
  | none => exact Nat.le_max_right _ _
  | @more _ ts us ms k v front last =>
    have hfront := front.deepest_le hd (.scalar (.string k) :: .colon :: (us ++ .comma :: rest))
    have hlast := last.deepest_le hd (.comma :: rest)
    have hcomma : deepest d (.comma :: rest) = deepest d rest := deepest_flat rfl rest
    rw [deepest_key] at hfront
    rw [List.append_assoc, List.append_assoc, List.singleton_append, List.cons_append,
      List.cons_append]
    omega
termination_by ts.length

end

end GridRobot.Json
