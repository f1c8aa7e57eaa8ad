import Mathlib.Logic.Relation
import GridRobot.Level.Source
import GridRobot.Proofs.Block.Keys
import GridRobot.Proofs.Validation.Places

/-!
# Keys of levels

A level, its start and its entities are tolerant records: in which order their keys stand, and which
others they have besides, is not noticed, whatever faults there are. The blocks of the solution
inside are strict. `parse_tolerant` says what follows for the sources of levels.
-/

namespace GridRobot

def Position.fields : List String := ["x", "y"]

def Entity.fields : List String := ["id", "type"] ++ Position.fields

def Level.fields : List String :=
  ["id", "name", "description", "grid_size", "start_pos", "start_dir", "entities",
    "optimal_blocks", "max_blocks", "available_blocks", "solution"]

section Records

variable {members members' : List (String × Json)}

theorem Position.ofMembers_congr
    (h : ∀ key ∈ fields, Json.member? key members = Json.member? key members') :
    ofMembers members = ofMembers members' := by
  simp only [fields, List.forall_mem_cons] at h
  obtain ⟨hx, hy, -⟩ := h
  rw [ofMembers, ofMembers, Json.required_congr hx, Json.required_congr hy]

theorem Entity.ofJson_congr
    (h : ∀ key ∈ fields, Json.member? key members = Json.member? key members') :
    ofJson (.object members) = ofJson (.object members') := by
  obtain ⟨howns, hposition⟩ := List.forall_mem_append.mp h
  simp only [List.forall_mem_cons] at howns
  obtain ⟨hid, htype, -⟩ := howns
  simp only [ofJson, Json.checkRecord, Json.required_congr hid, Json.required_congr htype,
    Position.ofMembers_congr hposition]

theorem Level.ofJson_congr
    (h : ∀ key ∈ fields, Json.member? key members = Json.member? key members') :
    ofJson (.object members) = ofJson (.object members') := by
  have hoptional {α : Type} {key : String} (hkey : key ∈ fields) (default : α)
      (check : Json → Checked α) :
      Json.optional members key default check = Json.optional members' key default check :=
    Json.optional_congr (h key hkey) default check
  have hrequired {α : Type} {key : String} (hkey : key ∈ fields) (check : Json → Checked α) :
      Json.required members key check = Json.required members' key check :=
    Json.required_congr (h key hkey) check
  simp (disch := decide) only [ofJson, Json.checkRecord, hoptional, hrequired]

end Records

namespace Level

/-- One change of the keys of a level, its start or one of its entities: they change places, or one
is added that is not declared. -/
inductive Unnoticed : Json → Json → Prop
  | level {members members' : List (String × Json)}
      (change : Json.Unnoticed fields members members') :
      Unnoticed (.object members) (.object members')
  | start {members ps ps' : List (String × Json)}
      (start : Json.member? "start_pos" members = some (.object ps))
      (change : Json.Unnoticed Position.fields ps ps') :
      Unnoticed (.object members) (.object (Json.insert "start_pos" (.object ps') members))
  | entity {members es es' : List (String × Json)} {before after : List Json}
      (entities :
        Json.member? "entities" members = some (.array (before ++ .object es :: after)))
      (change : Json.Unnoticed Entity.fields es es') :
      Unnoticed (.object members)
        (.object (Json.insert "entities" (.array (before ++ .object es' :: after)) members))

/-- One change that leaves a level as it is if there is one: besides those that are not noticed, keys
of a block at any depth of the solution change places. -/
inductive Rearranged : Json → Json → Prop
  | outside {v v' : Json} (change : Unnoticed v v') : Rearranged v v'
  | block {members : List (String × Json)} {before after : List Json} {v v' : Json}
      (solution : Json.member? "solution" members = some (.array (before ++ v :: after)))
      (change : Block.Reordered v v') :
      Rearranged (.object members)
        (.object (Json.insert "solution" (.array (before ++ v' :: after)) members))

variable {v v' : Json} {members : List (String × Json)}

/-- The check has the same result, with the same faults in the same order. -/
theorem Unnoticed.ofJson_eq (h : Unnoticed v v') : ofJson v = ofJson v' := by
  cases h with
  | level change => exact ofJson_congr fun key hkey => change.member?_eq hkey
  | @start _ ps ps' start change =>
    have hposition : Position.ofJson (.object ps) = Position.ofJson (.object ps') :=
      Position.ofMembers_congr fun key hkey => change.member?_eq hkey
    simp (disch := decide) only [ofJson, Json.checkRecord, Json.optional_insert_of_ne,
      Json.required_insert_of_ne, Json.required_insert start hposition]
  | @entity _ es es' before after entities change =>
    have hentity : Entity.ofJson (.object es) = Entity.ofJson (.object es') :=
      Entity.ofJson_congr fun key hkey => change.member?_eq hkey
    have hentities : Json.checkArray Entity.ofJson (.array (before ++ .object es :: after)) =
        Json.checkArray Entity.ofJson (.array (before ++ .object es' :: after)) :=
      Json.checkItems_congr hentity before after 0
    simp (disch := decide) only [ofJson, Json.checkRecord, Json.optional_insert_of_ne,
      Json.required_insert_of_ne, Json.optional_insert entities hentities]

/-- The same level is accepted with another solution that is checked to the same blocks. -/
theorem ofJson_insert_solution {w w' : Json} (hw : Json.member? "solution" members = some w)
    (h : ∀ bs, Block.listOfJson w = .valid bs ↔ Block.listOfJson w' = .valid bs) (l : Level) :
    ofJson (.object members) = .valid l ↔
      ofJson (.object (Json.insert "solution" w' members)) = .valid l := by
  -- All other fields are the same on both sides, so only the verdict on the solution is compared.
  simp (disch := decide) only [ofJson, Json.checkRecord, Checked.seq_eq,
    Checked.apply_eq_valid_iff, Json.optional_insert_of_ne, Json.required_insert_of_ne,
    Json.optional_insert_eq_valid_iff hw h]

theorem Rearranged.ofJson_eq_valid_iff (h : Rearranged v v') (l : Level) :
    ofJson v = .valid l ↔ ofJson v' = .valid l := by
  cases h with
  | outside change => rw [change.ofJson_eq]
  | block solution change =>
    exact ofJson_insert_solution solution
      (Block.listOfJson_eq_valid_congr change.ofJson_eq_valid_iff _ _) l

theorem ofJson_eq_of_eqvGen (h : Relation.EqvGen Unnoticed v v') : ofJson v = ofJson v' := by
  have hequiv : Equivalence fun v v' : Json => ofJson v = ofJson v' :=
    ⟨fun _ => rfl, Eq.symm, Eq.trans⟩
  exact hequiv.eqvGen_iff.mp (h.mono fun _ _ => Unnoticed.ofJson_eq)

theorem ofJson_eq_valid_iff_of_eqvGen (h : Relation.EqvGen Rearranged v v') :
    ∀ l, ofJson v = .valid l ↔ ofJson v' = .valid l := by
  have hequiv : Equivalence fun v v' : Json => ∀ l, ofJson v = .valid l ↔ ofJson v' = .valid l :=
    ⟨fun _ _ => .rfl, fun h l => (h l).symm, fun h h' l => (h l).trans (h' l)⟩
  exact hequiv.eqvGen_iff.mp (h.mono fun _ _ => Rearranged.ofJson_eq_valid_iff)

/-- Among the blocks of the solution, at some depth, there is a key that is not declared. -/
def Overfull (v : Json) : Prop :=
  ∃ members vs w, v = .object members ∧
    Json.member? "solution" members = some (.array vs) ∧ w ∈ vs ∧ Block.Overfull w

theorem ofJson_ne_valid_of_overfull (h : Overfull v) (l : Level) : ofJson v ≠ .valid l := by
  obtain ⟨members, vs, w, rfl, hsolution, hw, hfull⟩ := h
  intro hl
  simp only [ofJson, Json.checkRecord, Checked.seq_eq, Checked.apply_eq_valid_iff] at hl
  obtain ⟨-, bs, -, hblocks, -⟩ := hl
  obtain ⟨habsent, -⟩ | ⟨_, hvs, hitems⟩ := Block.optional_blocks_eq_valid_iff.mp hblocks
  · rw [habsent] at hsolution
    cases hsolution
  · rw [hvs] at hsolution
    cases hsolution
    obtain ⟨b, hb⟩ := Block.exists_block_of_mem (Block.ofItems_eq_valid_iff.mp hitems) hw
    exact hfull.ofJson_ne_valid b hb

/-- Sources of levels that can be read are tolerant of keys, except in blocks. When the members of
the level, its start and its entities change places, or members are added or removed that are not
declared, the result is the same: the same level, or a rejection for the same faults in the same
order. When members of blocks change places besides, the same level is accepted, if any. And with a
member that is not declared in any block of the solution, at any depth, no level is accepted. -/
theorem parse_tolerant {source source' : String}
    (hv : Json.parse? Json.nestingLimit source = some v)
    (hv' : Json.parse? Json.nestingLimit source' = some v') :
    (Relation.EqvGen Unnoticed v v' → parse source = parse source') ∧
    (Relation.EqvGen Rearranged v v' → ∀ l, parse source = .ok l ↔ parse source' = .ok l) ∧
    (Overfull v → ∃ faults, parse source = .error ⟨.level, .faults faults⟩) := by
  have hparse : parse source = (ofJson v).accept .level := Json.accept_eq hv
  have hparse' : parse source' = (ofJson v').accept .level := Json.accept_eq hv'
  refine ⟨?_, ?_, ?_⟩
  · intro h
    rw [hparse, hparse', ofJson_eq_of_eqvGen h]
  · intro h l
    rw [hparse, hparse', Checked.accept_eq_ok_iff, Checked.accept_eq_ok_iff]
    exact ofJson_eq_valid_iff_of_eqvGen h l
  · intro h
    rw [hparse]
    cases hl : ofJson v with
    | valid l => exact absurd hl (ofJson_ne_valid_of_overfull h l)
    | invalid faults => exact ⟨faults, rfl⟩

/-- A level with one loop. -/
def tidy : Json :=
  .object [("grid_size", .integer 3),
    ("start_pos", .object [("x", .integer 0), ("y", .integer 1)]),
    ("solution", .array [.object [("type", .string "REPEAT"), ("count", .integer 3)]])]

def tidySource : String :=
  "\x7b\"grid_size\":3,\"start_pos\":\x7b\"x\":0,\"y\":1\x7d," ++
  "\"solution\":[\x7b\"type\":\"REPEAT\",\"count\":3\x7d]\x7d"

/-- The same with keys in other places and a note. -/
def loose : Json :=
  .object [("start_pos", .object [("y", .integer 1), ("x", .integer 0)]), ("note", .null),
    ("grid_size", .integer 3),
    ("solution", .array [.object [("count", .integer 3), ("type", .string "REPEAT")]])]

def looseSource : String :=
  "\x7b\"start_pos\":\x7b\"y\":1,\"x\":0\x7d,\"note\":null,\"grid_size\":3," ++
  "\"solution\":[\x7b\"count\":3,\"type\":\"REPEAT\"\x7d]\x7d"

/-- The note among the blocks. -/
def noted : Json :=
  .object [("solution", .array [.object [("type", .string "REPEAT"),
    ("body", .array [.object [("type", .string "MOVE"), ("note", .null)]])]])]

def notedSource : String :=
  "\x7b\"solution\":[\x7b\"type\":\"REPEAT\"," ++
  "\"body\":[\x7b\"type\":\"MOVE\",\"note\":null\x7d]\x7d]\x7d"

/-- A change in a loop, one in the start and two in the level lead from one to the other. -/
theorem eqvGen_rearranged_tidy_loose : Relation.EqvGen Rearranged tidy loose := by
  refine .trans _ _ _ (.rel _ _ (@Rearranged.block _ [] [] _ _ rfl
    (.members (.swap _ _ _) (by simp)))) ?_
  refine .trans _ _ _ (.rel _ _ (.outside (.start rfl (.reorder (.swap _ _ _) (by simp))))) ?_
  refine .trans _ _ _ (.rel _ _ (.outside (.level (.reorder (.swap _ _ _) (by decide))))) ?_
  exact .rel _ _ (.outside (.level (@Json.Unnoticed.add _ [_] _ _ _ (by decide))))

theorem parse_tolerant_loose :
    Json.parse? Json.nestingLimit tidySource = some tidy ∧
    Json.parse? Json.nestingLimit looseSource = some loose ∧
    (∃ l, parse tidySource = .ok l ∧ parse looseSource = .ok l) ∧
    ∃ faults, parse notedSource = .error ⟨.level, .faults faults⟩ := by
  have htidy : Json.parse? Json.nestingLimit tidySource = some tidy := rfl
  have hloose : Json.parse? Json.nestingLimit looseSource = some loose := rfl
  have hnoted : Json.parse? Json.nestingLimit notedSource = some noted := rfl
  obtain ⟨-, hsame, -⟩ := parse_tolerant htidy hloose
  obtain ⟨-, -, hrefused⟩ := parse_tolerant hnoted hnoted
  refine ⟨htidy, hloose, ?_, hrefused ?_⟩
  · have haccepted : (parse tidySource).toOption.isSome = true := by decide +kernel
    cases hl : parse tidySource with
    | ok l => exact ⟨l, rfl, (hsame eqvGen_rearranged_tidy_loose l).mp hl⟩
    | error r => rw [hl] at haccepted; cases haccepted
  · have hmove : Block.Overfull (.object [("type", .string "MOVE"), ("note", .null)]) := by
      refine .here (m := ("note", .null)) (by simp) fun t _ => ?_
      cases t <;> simp [Block.fields]
    exact ⟨_, _, _, rfl, rfl, List.mem_singleton_self _,
      .inside rfl (List.mem_singleton_self _) hmove⟩

end Level

end GridRobot
