import GridRobot.Proofs.Block.Addresses

/-!
# The walk of a palette's check

A palette is checked block by block along a walk, which keeps the blocks still to be visited on a
stack. Each pass of the walk visits the first block that is still to come, so a walk has visited
every block at its address, in the order of the addresses, when the stack is empty. The main
statement says which violation is reported: too many blocks, or else the first block that is not
offered.
-/

namespace GridRobot

namespace Block

/-- The blocks still pending and those seen after some passes of a walk, if it has so many. -/
def passes : Nat → Array Block → Array Block → Option (Array Block × Array Block)
  | 0, pending, seen => some (pending, seen)
  | n + 1, pending, seen => do
    let (b, next) ← visit? pending
    passes n next (seen.push b)

theorem ahead_eq_nil_iff {pending : Array Block} : ahead pending = [] ↔ pending = #[] := by
  cases h : visit? pending with
  | none =>
    obtain rfl := visit?_eq_none_iff.mp h
    simp [ahead, preorderAll]
  | some visited =>
    obtain ⟨b, next⟩ := visited
    have hne : pending ≠ #[] := fun he => by simp [visit?_eq_none_iff.mpr he] at h
    simp [ahead_visit? h, hne]

/-- A walk has as many passes as there are blocks to come, and each moves the first of them to those
that it has seen. -/
theorem exists_passes {n : Nat} {pending : Array Block} (seen : Array Block)
    (h : n ≤ (ahead pending).length) :
    ∃ next, passes n pending seen = some (next, seen ++ ((ahead pending).take n).toArray) ∧
      ahead next = (ahead pending).drop n := by
  -- The first pass leaves another stack, and the passes that follow start from that one.
  induction n generalizing pending seen with
  | zero => exact ⟨pending, by simp [passes], rfl⟩
  | succ n ih =>
    cases hvisit : visit? pending with
    | none =>
      rw [ahead_eq_nil_iff.mpr (visit?_eq_none_iff.mp hvisit)] at h
      exact absurd h (by simp)
    | some visited =>
      obtain ⟨b, next₁⟩ := visited
      have hahead := ahead_visit? hvisit
      rw [hahead, List.length_cons] at h
      obtain ⟨next, hpasses, hrest⟩ := ih (seen.push b) (Nat.le_of_succ_le_succ h)
      refine ⟨next, ?_, by rw [hahead, hrest, List.drop_succ_cons]⟩
      simp [passes, hvisit, hpasses, hahead]

end Block

namespace Program

open Block

variable {p : Program} {l : Level} {b : Block}

/-- The level allows so many top-level blocks. -/
def Fits (p : Program) (l : Level) : Prop := ∀ m, l.maxBlocks = some m → (p.blockCount : Int) ≤ m

theorem missing?_eq_some_iff :
    p.missing? l = some b ↔
      ∃ a, at? p a = some b ∧ b.type ∉ l.palette ∧
        ∀ a' < a, ∀ c, at? p a' = some c → c.type ∈ l.palette := by
  rw [missing?, ← Array.find?_toList, visited_toList, find?_preorderAll_eq_some_iff]
  simp only [decide_eq_true_eq, decide_eq_false_iff_not, Decidable.not_not]
  constructor
  · rintro ⟨hb, a, ha, hfirst⟩
    exact ⟨a, ha, hb, hfirst⟩
  · rintro ⟨a, ha, hb, hfirst⟩
    exact ⟨hb, a, ha, hfirst⟩

theorem missing?_eq_none_iff :
    p.missing? l = none ↔ ∀ a b, at? p a = some b → b.type ∈ l.palette := by
  rw [missing?, ← Array.find?_toList, visited_toList, List.find?_eq_none]
  simp only [mem_preorderAll_iff, decide_eq_true_eq, Decidable.not_not]
  exact ⟨fun h a b hb => h b ⟨a, hb⟩, fun h b ⟨a, hb⟩ => h a b hb⟩

theorem not_fits {m : Int} (hmax : l.maxBlocks = some m) (hlong : m < p.blockCount) :
    ¬p.Fits l := by
  intro hfits
  have := hfits m hmax
  omega

/-- The number of blocks is checked first, and their types only if there are not too many. -/
theorem checkPalette_cases (p : Program) (l : Level) :
    (∃ m, l.maxBlocks = some m ∧ m < p.blockCount ∧
      p.checkPalette l = .error (.tooLong p.blockCount m)) ∨
    (p.Fits l ∧ ∃ b, p.missing? l = some b ∧
      p.checkPalette l = .error (.unavailable b.type l.name)) ∨
    (p.Fits l ∧ p.missing? l = none ∧ p.checkPalette l = .ok ()) := by
  have htypes (hfits : p.Fits l) : p.checkPalette l = checkPalette.types p l := by
    rw [checkPalette]
    split
    · rename_i m hm
      rw [if_neg fun hlong => not_fits hm hlong hfits]
    · rfl
  by_cases hfits : p.Fits l
  · right
    rw [htypes hfits, checkPalette.types]
    cases p.missing? l with
    | some b => exact .inl ⟨hfits, b, rfl, rfl⟩
    | none => exact .inr ⟨hfits, rfl, rfl⟩
  · left
    obtain ⟨m, hm, hlong⟩ : ∃ m, l.maxBlocks = some m ∧ m < p.blockCount := by
      simpa [Fits] using hfits
    exact ⟨m, hm, hlong, by simp only [checkPalette, hm, hlong, ↓reduceIte]⟩

theorem checkPalette_eq_tooLong_iff {n : Nat} {m : Int} :
    p.checkPalette l = .error (.tooLong n m) ↔
      n = p.blockCount ∧ l.maxBlocks = some m ∧ m < p.blockCount := by
  constructor
  · intro h
    rcases checkPalette_cases p l with
      ⟨m', hmax, hlong, hcheck⟩ | ⟨-, b, -, hcheck⟩ | ⟨-, -, hcheck⟩
    · cases hcheck.symm.trans h
      exact ⟨rfl, hmax, hlong⟩
    · cases hcheck.symm.trans h
    · cases hcheck.symm.trans h
  · rintro ⟨rfl, hmax, hlong⟩
    simp only [checkPalette, hmax, hlong, ↓reduceIte]

theorem checkPalette_eq_unavailable_iff {t : BlockType} {name : String} :
    p.checkPalette l = .error (.unavailable t name) ↔
      p.Fits l ∧ name = l.name ∧ ∃ a b, at? p a = some b ∧ b.type = t ∧ t ∉ l.palette ∧
        ∀ a' < a, ∀ c, at? p a' = some c → c.type ∈ l.palette := by
  rcases checkPalette_cases p l with
    ⟨m, hmax, hlong, hcheck⟩ | ⟨hfits, b, hmissing, hcheck⟩ | ⟨-, hnone, hcheck⟩
  · simp [hcheck, not_fits hmax hlong]
  · rw [hcheck]
    constructor
    · rintro ⟨⟩
      obtain ⟨a, ha, hb, hfirst⟩ := missing?_eq_some_iff.mp hmissing
      exact ⟨hfits, rfl, a, b, ha, rfl, hb, hfirst⟩
    · rintro ⟨-, rfl, a, b', ha, rfl, hb, hfirst⟩
      have hmissing' := missing?_eq_some_iff.mpr ⟨a, ha, hb, hfirst⟩
      obtain rfl : b = b' := Option.some_inj.mp (hmissing.symm.trans hmissing')
      rfl
  · rw [hcheck]
    constructor
    · rintro ⟨⟩
    · rintro ⟨-, -, a, b, ha, rfl, hb, -⟩
      exact absurd (missing?_eq_none_iff.mp hnone a b ha) hb

theorem checkPalette_eq_ok_iff :
    p.checkPalette l = .ok () ↔ p.Fits l ∧ ∀ a b, at? p a = some b → b.type ∈ l.palette := by
  rw [← missing?_eq_none_iff]
  rcases checkPalette_cases p l with
    ⟨m, hmax, hlong, hcheck⟩ | ⟨hfits, b, hmissing, hcheck⟩ | ⟨hfits, hnone, hcheck⟩
  · simp [hcheck, not_fits hmax hlong]
  · simp [hcheck, hmissing]
  · simp [hcheck, hnone, hfits]

/-- The first reason to refuse a program is that it has too many blocks. Any other refusal names the
type of the first block, by its address, that is not of an offered type, wherever that block stands.
The walk that looks for it makes one pass for each block and comes to an end with the last. In these
passes it visits all addresses in order, which is to say all blocks in preorder, each once. -/
theorem checkPalette_walk (p : Program) (l : Level) :
    (∀ n m, p.checkPalette l = .error (.tooLong n m) ↔
      n = p.blockCount ∧ l.maxBlocks = some m ∧ m < p.blockCount) ∧
    (∀ t name, p.checkPalette l = .error (.unavailable t name) ↔
      p.Fits l ∧ name = l.name ∧ ∃ a b, at? p a = some b ∧ b.type = t ∧ t ∉ l.palette ∧
        ∀ a' < a, ∀ c, at? p a' = some c → c.type ∈ l.palette) ∧
    (p.checkPalette l = .ok () ↔ p.Fits l ∧ ∀ a b, at? p a = some b → b.type ∈ l.palette) ∧
    (∀ n ≤ p.visited.size, ∃ pending,
      passes n p.reverse.toArray #[] = some (pending, p.visited.take n) ∧
      (pending = #[] ↔ n = p.visited.size)) ∧
    p.visited.toList = preorderAll p ∧
    ∃ addresses : List (List Nat), addresses.Pairwise (· < ·) ∧
      (∀ a, a ∈ addresses ↔ at? p a ≠ none) ∧
      p.visited.toList.map some = addresses.map (at? p) := by
  have hahead : ahead p.reverse.toArray = p.visited.toList := by
    rw [ahead, List.toList_toArray, List.reverse_reverse, visited_toList]
  refine ⟨fun n m => checkPalette_eq_tooLong_iff, fun t name => checkPalette_eq_unavailable_iff,
    checkPalette_eq_ok_iff, ?_, p.visited_toList, addressesFrom 0 p, addressesFrom_sorted 0 p,
    fun a => mem_addressesFrom_zero_iff, ?_⟩
  · intro n hn
    have hlen : n ≤ (ahead p.reverse.toArray).length := by rwa [hahead, Array.length_toList]
    obtain ⟨pending, hpasses, hrest⟩ := exists_passes #[] hlen
    rw [hahead] at hpasses hrest
    refine ⟨pending, ?_, ?_⟩
    · rw [hpasses, Array.empty_append]
      congr 2
      apply Array.toList_inj.mp
      simp
    · rw [← ahead_eq_nil_iff, hrest, List.drop_eq_nil_iff, Array.length_toList]
      omega
  · rw [p.visited_toList, preorderAll_addresses]

end Program

end GridRobot
