import Mathlib.Data.List.Nodup
import GridRobot.Board

/-!
# Painting a board

A board is painted cell by cell, and what is painted first on a cell hides what comes later, except
for the robot. Seen as a function on cells, a board changes in one cell with each stroke, or not at
all if the stroke is off the board; so no stroke needs to know of any other cell. `draw_eq` says
that all strokes together make the picture that `Level.glyphAt` tells of each cell on its own.
-/

namespace GridRobot

namespace Board

/-- The board of a size on which each cell shows what `f` says. -/
def ofCells (size : Nat) (f : Position → Char) : Board :=
  (Array.range size).map fun (y : Nat) => (Array.range size).map fun (x : Nat) => f ⟨x, y⟩

/-- The cells of a board of a size, row by row. -/
def cells (size : Nat) : List Position :=
  (List.range size).flatMap fun (y : Nat) => (List.range size).map fun (x : Nat) => ⟨x, y⟩

variable {f g : Position → Char}

theorem mem_cells {l : Level} {p : Position} : p ∈ cells l.size ↔ l.Inside p := by
  simp only [cells, List.mem_flatMap, List.mem_map, List.mem_range, Level.Inside]
  constructor
  · rintro ⟨y, hy, x, hx, rfl⟩
    simp only
    omega
  · rintro ⟨hx, hxl, hy, hyl⟩
    refine ⟨p.y.toNat, by omega, p.x.toNat, by omega, ?_⟩
    rw [Int.toNat_of_nonneg hx, Int.toNat_of_nonneg hy]

theorem nodup_cells (size : Nat) : (cells size).Nodup := by
  rw [cells, List.nodup_flatMap]
  constructor
  · intro y _
    refine List.nodup_range.map fun x x' h => ?_
    exact Int.ofNat_inj.mp (congrArg Position.x h)
  · refine List.nodup_range.pairwise_of_forall_ne fun y _ y' _ hne => ?_
    simp only [Function.onFun, List.disjoint_left, List.mem_map]
    rintro _ ⟨x, -, rfl⟩ ⟨x', -, h⟩
    simp only [Position.mk.injEq] at h
    omega

/-- Off the board, it makes no difference what `f` says. -/
theorem ofCells_congr {l : Level} (h : ∀ p, l.Inside p → f p = g p) :
    ofCells l.size f = ofCells l.size g := by
  refine Array.map_congr_left fun y hy => Array.map_congr_left fun x hx => ?_
  rw [Array.mem_range] at hx hy
  apply h
  simp only [Level.Inside]
  omega

theorem blank_eq (size : Nat) : blank size = ofCells size fun _ => emptyCell := by
  refine Array.ext (by simp [blank, ofCells]) fun j hj _ => ?_
  refine Array.ext (by simp [blank, ofCells]) fun i hi _ => ?_
  simp [blank, ofCells]

theorem modify_ofCells (size x y : Nat) (f : Position → Char) (change : Char → Char) :
    (ofCells size f).modify y (fun row => row.modify x change) =
      ofCells size fun p => if p = ⟨x, y⟩ then change (f p) else f p := by
  refine Array.ext (by simp [ofCells]) fun j hj _ => ?_
  simp only [ofCells, Array.getElem_modify, Array.getElem_map, Array.getElem_range]
  by_cases hy : y = j
  · subst hy
    have hcell (i : Nat) : (⟨i, y⟩ : Position) = ⟨x, y⟩ ↔ x = i := by
      rw [Position.mk.injEq]
      omega
    refine Array.ext (by simp) fun i hi _ => ?_
    simp [Array.getElem_modify, hcell]
  · have hrow (i : Nat) : (⟨i, j⟩ : Position) ≠ ⟨x, y⟩ := by
      simp only [ne_eq, Position.mk.injEq]
      omega
    simp only [hy, hrow, ↓reduceIte]

/-- A stroke changes the one cell where it is, and a stroke off the board changes none. -/
theorem paint_ofCells (l : Level) (p : Position) (f : Position → Char) (change : Char → Char) :
    (ofCells l.size f).paint l p change =
      ofCells l.size fun q => if q = p then change (f q) else f q := by
  by_cases hin : l.Inside p
  · have hp : p = ⟨(p.x.toNat : Int), (p.y.toNat : Int)⟩ := by
      rw [Int.toNat_of_nonneg hin.1, Int.toNat_of_nonneg hin.2.2.1]
    rw [paint, if_pos hin, modify_ofCells, ← hp]
  · rw [paint, if_neg hin]
    apply ofCells_congr
    intro q hq
    rw [if_neg]
    rintro rfl
    exact hin hq

/-- The first untaken entity on a cell of some entities, as it is drawn. -/
def shown (es : List Entity) (r : Option Robot) (p : Position) : Char :=
  match es.find? fun e => e.position = p ∧ e.taken r = false with
  | some e => e.kind.glyph
  | none => emptyCell

theorem shown_cons (e : Entity) (es : List Entity) (r : Option Robot) (p : Position) :
    shown (e :: es) r p =
      if e.position = p ∧ e.taken r = false then e.kind.glyph else shown es r p := by
  rw [shown, List.find?_cons]
  by_cases he : e.position = p ∧ e.taken r = false
  · simp [he]
  · simp [he, shown]

theorem glyph_ne_emptyCell (k : EntityKind) : k.glyph ≠ emptyCell := by cases k <;> decide

theorem paintEntity_ofCells (l : Level) (r : Option Robot) (f : Position → Char) (e : Entity) :
    paintEntity l r (ofCells l.size f) e = ofCells l.size fun p =>
      if f p = emptyCell ∧ e.position = p ∧ e.taken r = false then e.kind.glyph else f p := by
  rw [paintEntity]
  split
  · rename_i htaken
    simp [htaken]
  · rename_i htaken
    rw [paint_ofCells]
    apply ofCells_congr
    intro p _
    by_cases hp : p = e.position
    · simp [hp, htaken]
    · simp [hp, Ne.symm hp]

/-- Entities fill the cells that are empty, each with the first one that it has for them. -/
theorem foldl_paintEntity (l : Level) (r : Option Robot) (es : List Entity) (f : Position → Char) :
    es.foldl (paintEntity l r) (ofCells l.size f) =
      ofCells l.size fun p => if f p = emptyCell then shown es r p else f p := by
  induction es generalizing f with
  | nil =>
    apply ofCells_congr
    intro p _
    split
    · rename_i hf
      exact hf
    · rfl
  | cons e es ih =>
    rw [List.foldl_cons, paintEntity_ofCells, ih]
    apply ofCells_congr
    intro p _
    rw [shown_cons]
    -- A cell that shows an entity is not empty, so nothing behind that entity gets there.
    by_cases hf : f p = emptyCell <;> by_cases he : e.position = p ∧ e.taken r = false
    · simp [hf, he, glyph_ne_emptyCell]
    · simp [hf, he]
    · simp [hf]
    · simp [hf]

theorem glyphAt_of_here {l : Level} {r : Robot} {p : Position} (h : r.position = p) :
    l.glyphAt (some r) p = r.glyph := by
  simp [Level.glyphAt, Option.filter, h]

theorem glyphAt_of_elsewhere {l : Level} {r : Option Robot} {p : Position}
    (h : ∀ s, r = some s → s.position ≠ p) : l.glyphAt r p = shown l.entities r p := by
  cases r with
  | none => rfl
  | some s =>
    simp only [Level.glyphAt, Option.filter, h s rfl, decide_false, Bool.false_eq_true, ↓reduceIte]
    rfl

/-- The painted picture is what `Level.glyphAt` says of each cell. -/
theorem draw_eq (l : Level) (r : Option Robot) : draw l r = ofCells l.size (l.glyphAt r) := by
  have hentities : l.entities.foldl (paintEntity l r) (blank l.size) =
      ofCells l.size (shown l.entities r) := by
    rw [blank_eq, foldl_paintEntity]
    apply ofCells_congr
    intro p _
    rw [if_pos rfl]
  cases r with
  | none => exact hentities
  | some r =>
    rw [draw, hentities, paint_ofCells]
    apply ofCells_congr
    intro p _
    split
    · rename_i hp
      exact (glyphAt_of_here hp.symm).symm
    · rename_i hp
      refine (glyphAt_of_elsewhere ?_).symm
      rintro s ⟨⟩
      exact Ne.symm hp

end Board

end GridRobot
