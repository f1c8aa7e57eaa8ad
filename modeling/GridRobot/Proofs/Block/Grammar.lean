import GridRobot.Proofs.Block.RoundTrip
import GridRobot.Proofs.Json.Grammar
import GridRobot.Score

/-!
# The grammar of programs

Which values denote which blocks, said without the check that collects faults. The main statement is
that a source is accepted exactly if its tokens spell an array of values that denote blocks, and
that the program is then the list of these blocks, whatever stands at whatever depth.
-/

namespace GridRobot

/-- A count is an integer, in any spelling, that is not out of range. -/
theorem Json.checkCount_eq_valid_iff {v : Json} {n : Fin 11} :
    v.checkCount = .valid n ↔ ∃ m, v.toInt = .ok m ∧ 0 ≤ m ∧ m ≤ 10 ∧ m = n.val := by
  unfold checkCount
  cases hv : v.toInt with
  | error e => simp [Checked.fault_ne_valid]
  | ok m =>
    simp only [Except.ok.injEq, exists_eq_left']
    by_cases hlow : m < 0
    · rw [if_pos hlow]
      have : ¬0 ≤ m := by omega
      simp [Checked.fault_ne_valid, this]
    · rw [if_neg hlow]
      by_cases hhigh : 10 < m
      · rw [dif_pos hhigh]
        have : ¬m ≤ 10 := by omega
        simp [Checked.fault_ne_valid, this]
      · rw [dif_neg hhigh, Checked.valid.injEq, Fin.ext_iff]
        show m.toNat = n.val ↔ 0 ≤ m ∧ m ≤ 10 ∧ m = n.val
        omega

namespace Block

mutual

/-- The values that denote a block. An object has a `type`; with one of the four instructions it has
nothing else, and a loop may have a `count` from zero to ten and a `body` besides. -/
inductive Denotes : Json → Block → Prop
  | basic {members : List (String × Json)} {i : Instruction}
      (type : Json.member? "type" members = some (.string i.name))
      (others : ∀ m ∈ members, m.1 = "type") : Denotes (.object members) (.basic i)
  | loop {members : List (String × Json)} {n : Fin 11} {body : List Block}
      (type : Json.member? "type" members = some (.string "REPEAT"))
      (count : Json.member? "count" members = none ∧ n.val = 2 ∨
        ∃ v m, Json.member? "count" members = some v ∧ v.toInt = .ok m ∧ 0 ≤ m ∧ m ≤ 10 ∧
          m = n.val)
      (blocks : DenotesBody members body)
      (others : ∀ m ∈ members, m.1 = "type" ∨ m.1 = "count" ∨ m.1 = "body") :
      Denotes (.object members) (.loop n body)

/-- The blocks that an object denotes by its `body`: those of an array, or none. -/
inductive DenotesBody : List (String × Json) → List Block → Prop
  | absent {members : List (String × Json)} (body : Json.member? "body" members = none) :
      DenotesBody members []
  | given {members : List (String × Json)} {vs : List Json} {bs : List Block}
      (body : Json.member? "body" members = some (.array vs))
      (blocks : List.Forall₂ Denotes vs bs) : DenotesBody members bs

end

/-- What the check reads as the count of a loop, with the range in view. -/
theorem count_iff {members : List (String × Json)} {n : Fin 11} :
    (Json.member? "count" members = none ∧ n = defaultCount ∨
      ∃ v, Json.member? "count" members = some v ∧ v.checkCount = .valid n) ↔
    (Json.member? "count" members = none ∧ n.val = 2 ∨
      ∃ v m, Json.member? "count" members = some v ∧ v.toInt = .ok m ∧ 0 ≤ m ∧ m ≤ 10 ∧
        m = n.val) := by
  have hdefault : n = defaultCount ↔ n.val = 2 := Fin.ext_iff
  simp only [hdefault, Json.checkCount_eq_valid_iff, exists_and_left]

/-- The check of a block accepts what denotes one, and gives the block. -/
theorem ofJson_eq_valid_iff_denotes {b : Block} :
    ∀ {v : Json}, ofJson v = .valid b ↔ Denotes v b := by
  induction b using induct with
  | basic i =>
    intro v
    rw [ofJson_eq_valid_iff]
    constructor
    · rintro ⟨members, rfl, htype, hothers⟩
      exact .basic htype hothers
    · rintro ⟨htype, hothers⟩
      exact ⟨_, rfl, htype, hothers⟩
  | loop n body ih =>
    intro v
    have hitems (vs : List Json) :
        ofItems 0 vs = .valid body ↔ List.Forall₂ Denotes vs body := by
      rw [ofItems_eq_valid_iff, List.forall₂_iff_zip, List.forall₂_iff_zip]
      refine and_congr_right fun _ => forall₂_congr fun v b => imp_congr_right fun h => ?_
      exact ih b (List.of_mem_zip h).2
    rw [ofJson_eq_valid_iff]
    constructor
    · rintro ⟨members, rfl, htype, hothers, hcount, hbody⟩
      refine .loop htype (count_iff.mp hcount) ?_ hothers
      rcases hbody with ⟨hbody, rfl⟩ | ⟨vs, hbody, hvs⟩
      · exact .absent hbody
      · exact .given hbody ((hitems vs).mp hvs)
    · intro h
      cases h with
      | loop htype hcount hbody hothers =>
        refine ⟨_, rfl, htype, hothers, count_iff.mpr hcount, ?_⟩
        cases hbody with
        | absent hbody => exact .inl ⟨hbody, rfl⟩
        | given hbody hvs => exact .inr ⟨_, hbody, (hitems _).mpr hvs⟩

end Block

namespace Program

theorem ofJson_eq_valid_iff_denotes {v : Json} {p : Program} :
    ofJson v = .valid p ↔ ∃ vs, v = .array vs ∧ List.Forall₂ Block.Denotes vs p := by
  cases v with
  | array vs =>
    simp only [ofJson, Block.ofItems_eq_valid_iff, Block.ofJson_eq_valid_iff_denotes,
      Json.array.injEq, exists_eq_left']
  | _ => simp [ofJson, Checked.fault_ne_valid]

/-- A source is accepted exactly if its tokens spell an array of which every item denotes a block,
and the program is made of these blocks. Brackets then nest no deeper than 201. Of several values of
a key the last one counts, and the count of each loop, at any depth, is one from zero to ten. -/
theorem parse_eq_ok_iff_denotes (source : String) (p : Program) :
    (parse source = .ok p ↔ ∃ ts vs, Json.tokens? source.toList = some ts ∧
      Json.Spells 200 0 ts (.array vs) ∧ Json.deepest 0 ts ≤ 201 ∧
      List.Forall₂ Block.Denotes vs p) ∧
    (∀ k ms, Json.member? k (Json.gather ms) = Json.member? k ms.reverse) ∧
    (parse source = .ok p → ∀ n body, .loop n body ∈ Block.preorderAll p →
      0 ≤ (n.val : Int) ∧ (n.val : Int) ≤ 10) := by
  refine ⟨?_, Json.member?_gather, ?_⟩
  · rw [parse_eq_ok_iff]
    constructor
    · rintro ⟨v, hread, hv⟩
      obtain ⟨ts, hts, hspells⟩ := Json.parse?_eq_some_iff.mp hread
      obtain ⟨vs, rfl, hvs⟩ := ofJson_eq_valid_iff_denotes.mp hv
      have hdeep := hspells.deepest_le (Nat.zero_le _) []
      rw [List.append_nil] at hdeep
      exact ⟨ts, vs, hts, hspells, hdeep, hvs⟩
    · rintro ⟨ts, vs, hts, hspells, -, hvs⟩
      exact ⟨_, Json.parse?_eq_some_iff.mpr ⟨ts, hts, hspells⟩,
        ofJson_eq_valid_iff_denotes.mpr ⟨vs, rfl, hvs⟩⟩
  · -- A count is kept in a type that admits no others.
    intro _ n body _
    omega

end Program

end GridRobot
