import GridRobot.Proofs.Block.Nesting
import GridRobot.Proofs.Validation.Members

/-!
# Keys of blocks

The check of a block is strict about the keys of an object and does not notice their order: where it
accepts a block, it accepts the same block with the keys at any depth in another order, and it
accepts none with a key at any depth that is not declared.
-/

namespace GridRobot.Block

variable {v v' : Json} {members members' : List (String × Json)} {b : Block}

/-- The keys that an object of a type may have. -/
def fields : BlockType → List String
  | .basic _ => ["type"]
  | .loop => ["type", "count", "body"]

/-- One object, the value itself or one at some depth in it, has its members in another order. -/
inductive Reordered : Json → Json → Prop
  | members {members members' : List (String × Json)} (perm : members.Perm members')
      (distinct : (members.map Prod.fst).Nodup) : Reordered (.object members) (.object members')
  | body {members : List (String × Json)} {before after : List Json} {v v' : Json}
      (body : Json.member? "body" members = some (.array (before ++ v :: after)))
      (item : Reordered v v') :
      Reordered (.object members)
        (.object (Json.insert "body" (.array (before ++ v' :: after)) members))

/-- One object, the value itself or one at some depth in it, has a key that is not declared. Where
the object has no type of a block, none is. -/
inductive Overfull : Json → Prop
  | here {members : List (String × Json)} {m : String × Json} (mem : m ∈ members)
      (undeclared : ∀ t : BlockType,
        Json.member? "type" members = some (.string t.name) → m.1 ∉ fields t) :
      Overfull (.object members)
  | inside {members : List (String × Json)} {vs : List Json} {v : Json}
      (body : Json.member? "body" members = some (.array vs)) (mem : v ∈ vs)
      (item : Overfull v) : Overfull (.object members)

/-- Blocks of an array come from its items alone. -/
theorem listOfJson_eq_valid_congr (h : ∀ b, ofJson v = .valid b ↔ ofJson v' = .valid b)
    (before after : List Json) (bs : List Block) :
    listOfJson (.array (before ++ v :: after)) = .valid bs ↔
      listOfJson (.array (before ++ v' :: after)) = .valid bs := by
  rw [listOfJson, listOfJson, ofItems_eq_valid_iff, ofItems_eq_valid_iff]
  induction before generalizing bs with
  | nil => cases bs <;> simp [h]
  | cons w before ih => cases bs <;> simp [ih]

theorem exists_block_of_mem {vs : List Json} {bs : List Block}
    (h : List.Forall₂ (fun v b => ofJson v = .valid b) vs bs) (hv : v ∈ vs) :
    ∃ b, ofJson v = .valid b := by
  induction h with
  | nil => cases hv
  | cons hb _ ih =>
    rcases List.mem_cons.mp hv with rfl | hv
    · exact ⟨_, hb⟩
    · exact ih hv

theorem spelled_perm (perm : members.Perm members') (distinct : (members.map Prod.fst).Nodup)
    (b : Block) : b.Spelled members ↔ b.Spelled members' := by
  have hmember (key : String) := Json.member?_perm perm distinct key
  cases b <;> simp only [Spelled, hmember, perm.mem_iff]

/-- Another body does not matter as long as it is checked to the same blocks. -/
theorem spelled_insert_body {w w' : Json} (hw : Json.member? "body" members = some w)
    (h : ∀ bs, listOfJson w = .valid bs ↔ listOfJson w' = .valid bs) (b : Block) :
    b.Spelled members ↔ b.Spelled (Json.insert "body" w' members) := by
  have hother {key : String} (hne : key ≠ "body") :
      Json.member? key (Json.insert "body" w' members) = Json.member? key members := by
    rw [Json.member?_insert, if_neg hne]
  cases b with
  | basic i =>
    simp (disch := decide) only [Spelled, hother, Json.forall_keys_insert hw w' (· = "type")]
  | loop n body =>
    have hkeys := Json.forall_keys_insert hw w' fun k => k = "type" ∨ k = "count" ∨ k = "body"
    simp (disch := decide) only [Spelled, hother, hkeys, ← optional_blocks_eq_valid_iff,
      Json.optional_insert_eq_valid_iff hw h]

/-- The same block is accepted when keys at any depth change places. -/
theorem Reordered.ofJson_eq_valid_iff (h : Reordered v v') (b : Block) :
    ofJson v = .valid b ↔ ofJson v' = .valid b := by
  induction h generalizing b with
  | members perm distinct =>
    simp only [Block.ofJson_eq_valid_iff, Json.object.injEq, exists_eq_left',
      spelled_perm perm distinct]
  | body body _ ih =>
    -- The item is checked to the same blocks as before, so the body around it is, too.
    have hbody := spelled_insert_body body (listOfJson_eq_valid_congr ih _ _)
    simp only [Block.ofJson_eq_valid_iff, Json.object.injEq, exists_eq_left', hbody]

/-- A key that is not declared, at any depth, keeps the whole from being accepted. -/
theorem Overfull.ofJson_ne_valid (h : Overfull v) (b : Block) : ofJson v ≠ .valid b := by
  intro hb
  induction h generalizing b with
  | here mem undeclared =>
    obtain ⟨_, he, hspelled⟩ := Block.ofJson_eq_valid_iff.mp hb
    cases he
    cases b with
    | basic i => exact undeclared (.basic i) hspelled.1 (by simpa [fields] using hspelled.2 _ mem)
    | loop n body => exact undeclared .loop hspelled.1 (by simpa [fields] using hspelled.2.1 _ mem)
  | inside body mem _ ih =>
    obtain ⟨_, he, hspelled⟩ := Block.ofJson_eq_valid_iff.mp hb
    cases he
    cases b with
    | basic i =>
      -- The object that holds the key is itself in a body, which an instruction does not have.
      have hkey : "body" = "type" := hspelled.2 _ (Json.mem_of_member? body)
      exact absurd hkey (by decide)
    | loop n bs =>
      obtain ⟨-, -, -, ⟨habsent, -⟩ | ⟨vs, hvs, hitems⟩⟩ := hspelled
      · rw [habsent] at body
        cases body
      · rw [hvs] at body
        cases body
        obtain ⟨b, hitem⟩ := exists_block_of_mem (ofItems_eq_valid_iff.mp hitems) mem
        exact ih b hitem

end GridRobot.Block
