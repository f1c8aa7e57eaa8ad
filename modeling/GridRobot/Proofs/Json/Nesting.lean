import GridRobot.Proofs.Json.Reading

/-!
# No reader goes deeper than its limit

Whatever the text, a value that is read nests no deeper than the limit of the reader. The invariant
is on what is still open: each container has room for what it holds, counted with the containers
around it. It rests on the tokens of a text, of which none holds a container.
-/

namespace GridRobot.Json

theorem depthItems_le_iff {vs : List Json} {n : Nat} :
    depthItems vs ≤ n ↔ ∀ v ∈ vs, v.depth + 1 ≤ n := by
  induction vs with
  | nil => simp [depthItems]
  | cons v vs ih => rw [depthItems, Nat.max_le, ih, List.forall_mem_cons]

theorem depthMembers_le_iff {ms : List (String × Json)} {n : Nat} :
    depthMembers ms ≤ n ↔ ∀ m ∈ ms, m.2.depth + 1 ≤ n := by
  induction ms with
  | nil => simp [depthMembers]
  | cons m ms ih =>
    obtain ⟨k, v⟩ := m
    rw [depthMembers, Nat.max_le, ih, List.forall_mem_cons]

theorem mem_of_member? {key : String} {members : List (String × Json)} {v : Json}
    (h : member? key members = some v) : (key, v) ∈ members := by
  induction members with
  | nil => cases h
  | cons m ms ih =>
    obtain ⟨k, w⟩ := m
    rw [member?, List.lookup_cons] at h
    split at h
    · rename_i heq
      cases h
      rw [beq_iff_eq.mp heq]
      exact List.mem_cons_self
    · exact List.mem_cons_of_mem _ (ih h)

theorem depth_lt_of_member? {key : String} {members : List (String × Json)} {v : Json}
    (h : member? key members = some v) : v.depth < depthMembers members :=
  depthMembers_le_iff.mp (Nat.le_refl _) _ (mem_of_member? h)

/-- What is true of the new value and of all that was there is true of all that is there now. -/
theorem forall_mem_insert {P : Json → Prop} {k : String} {v : Json} {ms : List (String × Json)}
    (hv : P v) (hms : ∀ m ∈ ms, P m.2) : ∀ m ∈ insert k v ms, P m.2 := by
  induction ms with
  | nil => simpa [insert] using hv
  | cons m ms ih =>
    rw [List.forall_mem_cons] at hms
    rw [insert]
    split
    · exact List.forall_mem_cons.mpr ⟨hv, hms.2⟩
    · exact List.forall_mem_cons.mpr ⟨hms.1, ih hms.2⟩

/-- The values that an open container has so far. -/
def Open.values : Open → List Json
  | array items => items
  | object members _ => members.map Prod.snd

/-- Each open container has room for what it holds. -/
def Roomy (limit : Nat) : List Open → Prop
  | [] => True
  | o :: around => around.length < limit ∧
    (∀ v ∈ o.values, around.length + 1 + v.depth ≤ limit) ∧ Roomy limit around

theorem Roomy.length_le {limit : Nat} {around : List Open} (h : Roomy limit around) :
    around.length ≤ limit := by
  cases around with
  | nil => exact Nat.zero_le _
  | cons o around => exact h.1

namespace Reader

/-- Nothing that has been read is deeper than the limit. -/
def Within (limit : Nat) : Reader → Prop
  | value around | item around | member around => Roomy limit around
  | key members around | colon members _ around =>
    around.length < limit ∧ (∀ m ∈ members, around.length + 1 + m.2.depth ≤ limit) ∧
      Roomy limit around
  | done v around => around.length + v.depth ≤ limit ∧ Roomy limit around

end Reader

/-- If a token holds a value, it is one of these. -/
def Token.Holds (P : Json → Prop) : Token → Prop
  | scalar v => P v
  | _ => True

/-- A token that holds no container. -/
def Token.Flat (t : Token) : Prop := t.Holds fun v => v.depth = 0

namespace Reader

variable {limit : Nat} {s s' : Reader} {t : Token}

theorem start_within {around : List Open} (h : Roomy limit around) (ht : t.Flat)
    (hs : start around t = some s') : s'.Within limit := by
  cases t with
  | scalar v =>
    cases hs
    have hv : v.depth = 0 := ht
    exact ⟨by rw [hv]; exact Roomy.length_le h, h⟩
  | openArray => cases hs; exact h
  | openObject => cases hs; exact h
  | _ => cases hs

theorem add_depth_array_le {n : Nat} {vs : List Json} (hn : n ≤ limit)
    (h : ∀ v ∈ vs, n + 1 + v.depth ≤ limit) : n + depth (.array vs) ≤ limit := by
  have hvs : depthItems vs ≤ limit - n := by
    refine depthItems_le_iff.mpr fun v hv => ?_
    have := h v hv
    omega
  rw [depth]
  omega

theorem add_depth_object_le {n : Nat} {ms : List (String × Json)} (hn : n ≤ limit)
    (h : ∀ m ∈ ms, n + 1 + m.2.depth ≤ limit) : n + depth (.object ms) ≤ limit := by
  have hms : depthMembers ms ≤ limit - n := by
    refine depthMembers_le_iff.mpr fun m hm => ?_
    have := h m hm
    omega
  rw [depth]
  omega

/-- A step lets nothing in that is deeper than the limit: a container is opened for its first
part only if there is room, and what is completed fits where it was opened. -/
theorem step_within (h : s.Within limit) (ht : t.Flat) (hs : step limit s t = some s') :
    s'.Within limit := by
  cases s with
  | value around => exact start_within h ht hs
  | item around =>
    by_cases hclose : t = .closeArray
    · subst hclose
      cases hs
      exact ⟨Roomy.length_le h, h⟩
    · rw [step_item hclose] at hs
      split at hs
      · rename_i hroom
        have hopen : Roomy limit (.array [] :: around) := ⟨hroom, by simp [Open.values], h⟩
        exact start_within hopen ht hs
      · cases hs
  | member around =>
    cases t with
    | closeObject => cases hs; exact ⟨Roomy.length_le h, h⟩
    | scalar v =>
      cases v with
      | string k =>
        have hs' :
            (if around.length < limit then some (colon [] k around) else none) = some s' := hs
        split at hs'
        · rename_i hroom
          cases hs'
          exact ⟨hroom, by simp, h⟩
        · cases hs'
      | _ => cases hs
    | _ => cases hs
  | key members around =>
    cases t with
    | scalar v =>
      cases v with
      | string k => cases hs; exact h
      | _ => cases hs
    | _ => cases hs
  | colon members k around =>
    cases t with
    | colon =>
      cases hs
      obtain ⟨hroom, hms, ha⟩ := h
      exact ⟨hroom, List.forall_mem_map.mpr hms, ha⟩
    | _ => cases hs
  | done v around =>
    cases around with
    | nil => cases t <;> cases hs
    | cons o around =>
      obtain ⟨hv, hroom, hvalues, ha⟩ := h
      rw [List.length_cons] at hv
      cases o with
      | array items =>
        have hitems : ∀ w ∈ v :: items, around.length + 1 + w.depth ≤ limit :=
          List.forall_mem_cons.mpr ⟨hv, hvalues⟩
        cases t with
        | comma => cases hs; exact ⟨hroom, hitems, ha⟩
        | closeArray =>
          cases hs
          have hreverse : ∀ w ∈ (v :: items).reverse, around.length + 1 + w.depth ≤ limit :=
            fun w hw => hitems w (List.mem_reverse.mp hw)
          exact ⟨add_depth_array_le (Nat.le_of_lt hroom) hreverse, ha⟩
        | _ => cases hs
      | object members k =>
        have hms : ∀ m ∈ insert k v members, around.length + 1 + m.2.depth ≤ limit :=
          forall_mem_insert (P := fun w => around.length + 1 + w.depth ≤ limit) hv
            (List.forall_mem_map.mp hvalues)
        cases t with
        | comma => cases hs; exact ⟨hroom, hms, ha⟩
        | closeObject =>
          cases hs
          exact ⟨add_depth_object_le (Nat.le_of_lt hroom) hms, ha⟩
        | _ => cases hs

theorem run_within {ts : List Token} (h : s.Within limit) (ht : ∀ t ∈ ts, t.Flat)
    (hs : run limit s ts = some s') : s'.Within limit := by
  induction ts generalizing s with
  | nil => cases hs; exact h
  | cons t ts ih =>
    rw [List.forall_mem_cons] at ht
    rw [run_cons, Option.bind_eq_some_iff] at hs
    obtain ⟨next, hstep, hrun⟩ := hs
    exact ih (step_within h ht.1 hstep) ht.2 hrun

end Reader

/-! ## What the tokens of a text hold

It is a string, or what a word is read as. -/

theorem unsigned?_cases {negative : Bool} {cs : List Char} {v : Json}
    (h : unsigned? negative cs = some v) : (∃ d, v = .number d) ∨
      ∃ ds : List Char, ds.length ≤ Text.digitLimit ∧
        v = .integer (Double.sign negative (digitsValue ds)) := by
  unfold unsigned? at h
  dsimp only at h
  split at h
  · cases h
  rename_i hwhole
  split at h
  · cases h
    refine .inr ⟨_, ?_, rfl⟩
    simp only [Bool.or_eq_true, decide_eq_true_eq, not_or, Nat.not_lt] at hwhole
    exact hwhole.2
  · split at h
    · cases h
    split at h
    · cases h
      exact .inl ⟨_, rfl⟩
    · obtain ⟨e, -, rfl⟩ := Option.map_eq_some_iff.mp h
      exact .inl ⟨_, rfl⟩
  · obtain ⟨e, -, rfl⟩ := Option.map_eq_some_iff.mp h
    exact .inl ⟨_, rfl⟩

/-- All that a word can be read as. -/
theorem word?_cases {w : List Char} {v : Json} (h : word? w = some v) :
    v = .null ∨ (∃ b, v = .bool b) ∨ (∃ d, v = .number d) ∨
      ∃ (negative : Bool) (ds : List Char), ds.length ≤ Text.digitLimit ∧
        v = .integer (Double.sign negative (digitsValue ds)) := by
  unfold word? at h
  split at h
  case h_1 => cases h; exact .inl rfl
  case h_2 => cases h; exact .inr (.inl ⟨_, rfl⟩)
  case h_3 => cases h; exact .inr (.inl ⟨_, rfl⟩)
  case h_4 => cases h; exact .inr (.inr (.inl ⟨_, rfl⟩))
  case h_5 => cases h; exact .inr (.inr (.inl ⟨_, rfl⟩))
  case h_6 => cases h; exact .inr (.inr (.inl ⟨_, rfl⟩))
  case h_7 => exact .inr (.inr ((unsigned?_cases h).imp_right fun hds => ⟨_, hds⟩))
  case h_8 => exact .inr (.inr ((unsigned?_cases h).imp_right fun hds => ⟨_, hds⟩))

section Tokens

variable {P : Json → Prop}

theorem mark?_holds {c : Char} {t : Token} (h : Token.mark? c = some t) : t.Holds P := by
  unfold Token.mark? at h
  split at h <;> cases h <;> trivial

namespace Mode

theorem start_holds {ts : List Token} (h : ∀ t ∈ ts, t.Holds P) (c : Char) :
    ∀ t ∈ (start ts c).2, t.Holds P := by
  unfold start
  split
  · exact h
  split
  · exact h
  split
  · rename_i t ht
    exact List.forall_mem_cons.mpr ⟨mark?_holds ht, h⟩
  · exact h

end Mode

variable (hword : ∀ w v, word? w = some v → P v) (hstring : ∀ s, P (.string s))

include hword hstring

namespace Mode

theorem step_holds {s s' : Mode × List Token} {c : Char} (h : ∀ t ∈ s.2, t.Holds P)
    (hs : step s c = some s') : ∀ t ∈ s'.2, t.Holds P := by
  obtain ⟨mode, ts⟩ := s
  cases mode with
  | between => cases hs; exact start_holds h c
  | word read =>
    rw [step] at hs
    split at hs
    · obtain ⟨v, hv, rfl⟩ := Option.map_eq_some_iff.mp hs
      have hcons : ∀ t ∈ .scalar v :: ts, t.Holds P := List.forall_mem_cons.mpr ⟨hword _ _ hv, h⟩
      exact start_holds hcons c
    · cases hs; exact h
  | quoted read =>
    rw [step] at hs
    split at hs
    · cases hs
      exact List.forall_mem_cons.mpr ⟨hstring _, h⟩
    split at hs
    · cases hs; exact h
    split at hs
    · cases hs
    · cases hs; exact h
  | escape read =>
    rw [step] at hs
    split at hs
    · cases hs; exact h
    · obtain ⟨e, -, rfl⟩ := Option.map_eq_some_iff.mp hs
      exact h
  | code read half digits value =>
    rw [step, Option.bind_eq_bind, Option.bind_eq_some_iff] at hs
    obtain ⟨d, -, hs⟩ := hs
    split at hs
    · cases hs; exact h
    · rw [Option.bind_eq_bind, Option.bind_eq_some_iff] at hs
      obtain ⟨m, -, hs⟩ := hs
      cases hs
      exact h
  | half read first =>
    rw [step] at hs
    split at hs
    · cases hs; exact h
    · cases hs
  | halfEscape read first =>
    rw [step] at hs
    split at hs
    · cases hs; exact h
    · cases hs

end Mode

theorem scan_holds {s : Mode × List Token} {cs : List Char} {ts : List Token}
    (h : ∀ t ∈ s.2, t.Holds P) (hs : scan s cs = some ts) : ∀ t ∈ ts, t.Holds P := by
  induction cs generalizing s with
  | nil =>
    obtain ⟨mode, read⟩ := s
    cases mode with
    | between =>
      cases hs
      exact fun t ht => h t (List.mem_reverse.mp ht)
    | word w =>
      obtain ⟨v, hv, rfl⟩ := Option.map_eq_some_iff.mp hs
      have hcons : ∀ t ∈ .scalar v :: read, t.Holds P :=
        List.forall_mem_cons.mpr ⟨hword _ _ hv, h⟩
      exact fun t ht => hcons t (List.mem_reverse.mp ht)
    | _ => cases hs
  | cons c cs ih =>
    rw [scan_cons, Option.bind_eq_some_iff] at hs
    obtain ⟨s', hstep, hs⟩ := hs
    exact ih (Mode.step_holds hword hstring h hstep) hs

theorem tokens?_holds {cs : List Char} {ts : List Token} (h : tokens? cs = some ts) :
    ∀ t ∈ ts, t.Holds P := by
  rw [tokens?_eq_scan] at h
  exact scan_holds hword hstring (by simp) h

end Tokens

/-! ## The tokens of a text are flat -/

theorem word?_depth {w : List Char} {v : Json} (h : word? w = some v) : v.depth = 0 := by
  rcases word?_cases h with rfl | ⟨b, rfl⟩ | ⟨d, rfl⟩ | ⟨negative, ds, -, rfl⟩ <;> rfl

theorem tokens?_flat {cs : List Char} {ts : List Token} (h : tokens? cs = some ts) :
    ∀ t ∈ ts, t.Flat :=
  tokens?_holds (fun _ _ => word?_depth) (fun _ => rfl) h

/-- A reader accepts no value that is deeper than its limit. -/
theorem depth_le_of_parse? {limit : Nat} {text : String} {v : Json}
    (h : parse? limit text = some v) : v.depth ≤ limit := by
  rw [parse?, Option.bind_eq_bind, Option.bind_eq_some_iff] at h
  obtain ⟨ts, hts, h⟩ := h
  rw [ofTokens?, Option.bind_eq_bind, Option.bind_eq_some_iff] at h
  obtain ⟨s, hrun, h⟩ := h
  have hwithin : s.Within limit :=
    Reader.run_within (s := .value []) trivial (tokens?_flat hts) hrun
  split at h
  · cases h
    have hdepth := hwithin.1
    rw [List.length_nil, Nat.zero_add] at hdepth
    exact hdepth
  · cases h

end GridRobot.Json
