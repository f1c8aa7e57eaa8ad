import Mathlib.Data.List.Forall2
import GridRobot.Block.Source
import GridRobot.Proofs.Validation.Valid

/-!
# Which values are blocks

The check of a block, turned around: `ofJson_eq_valid_iff` says which members an object must have to
be read as a given block. What is written for a block meets it.
-/

namespace GridRobot

theorem BlockType.ofName?_eq_some_iff {s : String} {t : BlockType} :
    ofName? s = some t ↔ s = t.name := by
  constructor
  · intro h
    have hname := List.find?_some h
    simpa [eq_comm] using hname
  · rintro rfl
    exact ofName?_name t

namespace Block

/-- The members of an object that is read as a block. -/
def Spelled (members : List (String × Json)) : Block → Prop
  | basic i =>
    Json.member? "type" members = some (.string i.name) ∧ ∀ m ∈ members, m.1 = "type"
  | loop n body =>
    Json.member? "type" members = some (.string "REPEAT") ∧
    (∀ m ∈ members, m.1 = "type" ∨ m.1 = "count" ∨ m.1 = "body") ∧
    (Json.member? "count" members = none ∧ n = defaultCount ∨
      ∃ v, Json.member? "count" members = some v ∧ v.checkCount = .valid n) ∧
    (Json.member? "body" members = none ∧ body = [] ∨
      ∃ vs, Json.member? "body" members = some (.array vs) ∧ ofItems 0 vs = .valid body)

/-- The check of a loop, with its body as an optional field. -/
theorem ofJson_loop {members : List (String × Json)}
    (h : Json.member? "type" members = some (.string "REPEAT")) :
    ofJson (.object members) =
      ((fun n bs _ => loop n bs) <$> Json.optional members "count" defaultCount Json.checkCount <*>
        Json.optional members "body" [] listOfJson <*>
        Json.noOthers members ["type", "count", "body"]).under (.field "REPEAT") := by
  have hname : BlockType.ofName? "REPEAT" = some .loop := BlockType.ofName?_name .loop
  rw [ofJson]
  simp only [h, hname]
  congr 3
  unfold Json.optional listOfJson
  split <;> simp_all

theorem ofJson_basic {members : List (String × Json)} {i : Instruction}
    (h : Json.member? "type" members = some (.string i.name)) :
    ofJson (.object members) =
      ((fun _ => basic i) <$> Json.noOthers members ["type"]).under (.field i.name) := by
  have hname : BlockType.ofName? i.name = some (.basic i) := BlockType.ofName?_name (.basic i)
  rw [ofJson]
  simp only [h, hname]

/-- Only an object that names its type can be read. -/
theorem exists_type_of_ofJson {v : Json} {b : Block} (h : ofJson v = .valid b) :
    ∃ members t, v = .object members ∧
      Json.member? "type" members = some (.string (BlockType.name t)) := by
  cases v with
  | object members =>
    rw [ofJson] at h
    cases htag : Json.member? "type" members with
    | none => simp only [htag] at h; exact absurd h Checked.fault_ne_valid
    | some tag =>
      cases tag with
      | string name =>
        cases hname : BlockType.ofName? name with
        | none => simp only [htag, hname] at h; exact absurd h Checked.fault_ne_valid
        | some t => exact ⟨members, t, rfl, by rw [htag, BlockType.ofName?_eq_some_iff.mp hname]⟩
      | _ => simp only [htag] at h; exact absurd h Checked.fault_ne_valid
  | _ => simp [ofJson, Checked.fault_ne_valid] at h

theorem optional_blocks_eq_valid_iff {members : List (String × Json)} {key : String}
    {bs : List Block} :
    Json.optional members key [] listOfJson = .valid bs ↔
      Json.member? key members = none ∧ bs = [] ∨
        ∃ vs, Json.member? key members = some (.array vs) ∧ ofItems 0 vs = .valid bs := by
  rw [Json.optional_eq_valid_iff]
  refine or_congr_right ⟨?_, ?_⟩
  · rintro ⟨v, hv, hbs⟩
    cases v with
    | array vs => exact ⟨vs, hv, hbs⟩
    | _ => exact absurd hbs Checked.fault_ne_valid
  · rintro ⟨vs, hvs, hbs⟩
    exact ⟨.array vs, hvs, hbs⟩

theorem ofJson_basic_eq_valid_iff {members : List (String × Json)} {i : Instruction} {b : Block}
    (h : Json.member? "type" members = some (.string i.name)) :
    ofJson (.object members) = .valid b ↔ b = basic i ∧ ∀ m ∈ members, m.1 = "type" := by
  rw [ofJson_basic h, Checked.under_eq_valid_iff, Checked.map_eq_valid_iff]
  simp only [Json.noOthers_eq_valid_iff, List.mem_singleton]
  constructor
  · rintro ⟨-, hkeys, rfl⟩
    exact ⟨rfl, hkeys⟩
  · rintro ⟨rfl, hkeys⟩
    exact ⟨(), hkeys, rfl⟩

theorem ofJson_loop_eq_valid_iff {members : List (String × Json)} {b : Block}
    (h : Json.member? "type" members = some (.string "REPEAT")) :
    ofJson (.object members) = .valid b ↔
      ∃ n body, b = loop n body ∧ (loop n body).Spelled members := by
  rw [ofJson_loop h, Checked.under_eq_valid_iff]
  simp only [Checked.seq_eq, Checked.apply_eq_valid_iff, Checked.map_eq_valid_iff,
    optional_blocks_eq_valid_iff]
  simp only [Json.optional_eq_valid_iff, Json.noOthers_eq_valid_iff]
  constructor
  · rintro ⟨-, -, ⟨-, body, ⟨n, hcount, rfl⟩, hbody, rfl⟩, hkeys, rfl⟩
    exact ⟨n, body, rfl, h, by simpa using hkeys, hcount, hbody⟩
  · rintro ⟨n, body, rfl, -, hkeys, hcount, hbody⟩
    exact ⟨_, (), ⟨_, body, ⟨n, hcount, rfl⟩, hbody, rfl⟩, by simpa using hkeys, rfl⟩

/-- A value is read as a block exactly if it is an object with the members that spell the block. -/
theorem ofJson_eq_valid_iff {v : Json} {b : Block} :
    ofJson v = .valid b ↔ ∃ members, v = .object members ∧ b.Spelled members := by
  constructor
  · intro h
    obtain ⟨members, t, rfl, ht⟩ := exists_type_of_ofJson h
    refine ⟨members, rfl, ?_⟩
    cases t with
    | basic i =>
      obtain ⟨rfl, hkeys⟩ := (ofJson_basic_eq_valid_iff ht).mp h
      exact ⟨ht, hkeys⟩
    | loop =>
      obtain ⟨n, body, rfl, hspelled⟩ := (ofJson_loop_eq_valid_iff ht).mp h
      exact hspelled
  · rintro ⟨members, rfl, hspelled⟩
    cases b with
    | basic i => exact (ofJson_basic_eq_valid_iff hspelled.1).mpr ⟨rfl, hspelled.2⟩
    | loop n body => exact (ofJson_loop_eq_valid_iff hspelled.1).mpr ⟨n, body, rfl, hspelled⟩

/-- The blocks of an array are those of its items, wherever the array stands. -/
theorem ofItems_eq_valid_iff {n : Nat} {vs : List Json} {bs : List Block} :
    ofItems n vs = .valid bs ↔ List.Forall₂ (fun v b => ofJson v = .valid b) vs bs := by
  induction vs generalizing n bs with
  | nil => cases bs <;> simp [ofItems]
  | cons v vs ih =>
    rw [ofItems, Checked.seq_eq, Checked.apply_eq_valid_iff]
    cases bs with
    | nil => simp [Checked.map_eq_valid_iff]
    | cons b bs =>
      rw [List.forall₂_cons, ← ih (n := n + 1)]
      simp [Checked.map_eq_valid_iff, Checked.under_eq_valid_iff]

/-! ## What is written for a block -/

theorem checkCount_integer (n : Fin 11) : Json.checkCount (.integer n.val) = .valid n := by
  have hlow : ¬(n.val : Int) < 0 := by omega
  have hhigh : ¬10 < (n.val : Int) := by omega
  simp only [Json.checkCount, Json.toInt, if_neg hlow, dif_neg hhigh, Int.toNat_natCast]

theorem name_loop : BlockType.loop.name = "REPEAT" := rfl

theorem toItems_eq_map (bs : List Block) : toItems bs = bs.map toJson := by
  induction bs with
  | nil => rfl
  | cons b bs ih => rw [toItems, ih, List.map_cons]

theorem ofItems_toItems {bs : List Block} (h : ∀ b ∈ bs, ofJson b.toJson = .valid b) (n : Nat) :
    ofItems n (toItems bs) = .valid bs := by
  rw [ofItems_eq_valid_iff, toItems_eq_map, List.forall₂_map_left_iff, List.forall₂_same]
  exact h

/-- What is written for a block is read as that block. -/
theorem ofJson_toJson (b : Block) : ofJson b.toJson = .valid b := by
  induction b using induct with
  | basic i => exact ofJson_eq_valid_iff.mpr ⟨_, rfl, by simp [Spelled, Json.member?]⟩
  | loop n body ih =>
    refine ofJson_eq_valid_iff.mpr ⟨_, rfl, ?_⟩
    simp [Spelled, Json.member?, List.lookup_cons, checkCount_integer, ofItems_toItems ih,
      name_loop]

end Block

namespace Program

theorem ofJson_toJson (p : Program) : ofJson p.toJson = .valid p :=
  Block.ofItems_toItems (fun b _ => b.ofJson_toJson) 0

end Program

end GridRobot
