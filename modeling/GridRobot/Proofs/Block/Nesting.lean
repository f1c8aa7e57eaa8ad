import GridRobot.Proofs.Block.Sources
import GridRobot.Proofs.Json.Nesting

/-!
# How deep a program nests

A loop opens two containers, itself and its body, and an instruction one. Counted like this, with
the array of the whole program, a program nests as deep as its text. A reader does not count
containers that hold nothing, of which a text has at most the innermost, the body of an empty loop;
objects and arrays alternate, so for an even limit this makes no difference.
-/

namespace GridRobot

namespace Block

mutual

/-- How deep the containers of a block nest. -/
def nesting : Block → Nat
  | basic _ => 1
  | loop _ body => 2 + nestingAll body

def nestingAll : List Block → Nat
  | [] => 0
  | b :: bs => max (nesting b) (nestingAll bs)

end

theorem nesting_pos (b : Block) : 0 < b.nesting := by
  cases b with
  | basic i => exact Nat.one_pos
  | loop n body => rw [nesting]; omega

theorem nestingAll_le_iff {bs : List Block} {n : Nat} :
    nestingAll bs ≤ n ↔ ∀ b ∈ bs, b.nesting ≤ n := by
  induction bs with
  | nil => simp [nestingAll]
  | cons b bs ih => rw [nestingAll, Nat.max_le, ih, List.forall_mem_cons]

theorem nestingItems_toItems {bs : List Block} (h : ∀ b ∈ bs, b.toJson.nesting = b.nesting) :
    Json.nestingItems (toItems bs) = nestingAll bs := by
  induction bs with
  | nil => rfl
  | cons b bs ih =>
    rw [List.forall_mem_cons] at h
    rw [toItems, Json.nestingItems, nestingAll, h.1, ih h.2]

/-- The containers that are written for a block nest as deep as the block. -/
theorem nesting_toJson (b : Block) : b.toJson.nesting = b.nesting := by
  induction b using induct with
  | basic i => rfl
  | loop n body ih =>
    simp only [toJson, Json.nesting, Json.nestingMembers, nestingItems_toItems ih, nesting]
    omega

/-! ## What a reader counts -/

theorem depthItems_toItems_le_iff {bs : List Block} {n : Nat} :
    Json.depthItems (toItems bs) ≤ n ↔ ∀ b ∈ bs, b.toJson.depth + 1 ≤ n := by
  rw [Json.depthItems_le_iff, toItems_eq_map, List.forall_mem_map]

theorem depth_toJson_loop (n : Fin 11) (body : List Block) :
    (loop n body).toJson.depth = Json.depthItems (toItems body) + 1 := by
  simp only [toJson, Json.depth, Json.depthMembers]
  omega

/-- An odd limit on what a reader counts is the next even limit on the nesting. -/
theorem depth_toJson_le_iff (b : Block) (k : Nat) :
    b.toJson.depth ≤ 2 * k + 1 ↔ b.nesting ≤ 2 * k + 2 := by
  induction b using induct generalizing k with
  | basic i =>
    have hdepth : (basic i).toJson.depth = 1 := rfl
    have hnesting : (basic i).nesting = 1 := rfl
    omega
  | loop n body ih =>
    rw [depth_toJson_loop, nesting, Nat.add_le_add_iff_right, depthItems_toItems_le_iff,
      Nat.add_comm 2, Nat.add_le_add_iff_right, nestingAll_le_iff]
    refine forall₂_congr fun b hb => ?_
    cases k with
    | zero =>
      -- No room for any block, and both counts of a block are positive.
      have := b.nesting_pos
      omega
    | succ k =>
      have := ih b hb k
      omega

end Block

namespace Program

/-- How deep the containers of a program nest. -/
def nesting (p : Program) : Nat := 1 + Block.nestingAll p

theorem nesting_toJson (p : Program) : p.toJson.nesting = p.nesting := by
  rw [toJson, Json.nesting, Block.nestingItems_toItems fun b _ => b.nesting_toJson, nesting]

theorem depth_toJson_le_iff (p : Program) :
    p.toJson.depth ≤ Json.nestingLimit ↔ p.nesting ≤ 201 := by
  have hlimit : Json.nestingLimit = 200 := rfl
  have houter : 1 + Block.nestingAll p ≤ 201 ↔ Block.nestingAll p ≤ 200 := by omega
  rw [toJson, Json.depth, hlimit, Block.depthItems_toItems_le_iff, nesting, houter,
    Block.nestingAll_le_iff]
  refine forall₂_congr fun b _ => ?_
  have := b.depth_toJson_le_iff 99
  omega

end Program

/-! ## A block is not written deeper than it was -/

namespace Block

theorem depthItems_toItems_le {vs : List Json} {bs : List Block}
    (h : List.Forall₂ (fun v b => ofJson v = .valid b) vs bs)
    (hb : ∀ b ∈ bs, ∀ v, ofJson v = .valid b → b.toJson.depth ≤ v.depth) :
    Json.depthItems (toItems bs) ≤ Json.depthItems vs := by
  induction h with
  | nil => exact Nat.le_refl _
  | cons hv _ ih =>
    rw [List.forall_mem_cons] at hb
    have hhead := hb.1 _ hv
    have htail := ih hb.2
    rw [toItems, Json.depthItems, Json.depthItems]
    omega

/-- However a block was spelled, a reader counts no more in what is written for it. An omitted body
is written as an array, but as one that holds nothing. -/
theorem depth_toJson_le {b : Block} : ∀ {v : Json}, ofJson v = .valid b →
    b.toJson.depth ≤ v.depth := by
  induction b using induct with
  | basic i =>
    intro v h
    obtain ⟨members, rfl, htype, -⟩ := ofJson_eq_valid_iff.mp h
    have hdepth : (basic i).toJson.depth = 1 := rfl
    have := Json.depth_lt_of_member? htype
    rw [hdepth, Json.depth]
    omega
  | loop n body ih =>
    intro v h
    obtain ⟨members, rfl, htype, -, -, hbody⟩ := ofJson_eq_valid_iff.mp h
    rw [depth_toJson_loop, Json.depth]
    rcases hbody with ⟨-, rfl⟩ | ⟨vs, hvs, hitems⟩
    · -- The object holds its type in any case, so the array that is added costs nothing.
      have := Json.depth_lt_of_member? htype
      rw [toItems, Json.depthItems]
      omega
    · have hle := depthItems_toItems_le (ofItems_eq_valid_iff.mp hitems)
        fun b hb _ hv => ih b hb hv
      have := Json.depth_lt_of_member? hvs
      rw [Json.depth] at this
      omega

end Block

end GridRobot
