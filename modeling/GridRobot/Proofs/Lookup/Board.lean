import GridRobot.Proofs.Lookup.Table

/-!
# Painting with indexes that wrap around

A board is painted cell by cell, with rows and cells taken by index. A negative index would take a
cell from the other end without a word, and one that is too large would find none. The main
statement says that neither happens, wherever the entities and the robot are: the board is the
picture of the level.
-/

namespace GridRobot.Lookup

/-- The cells of a board, row by row. -/
abbrev Rows := List (List Char)

/-- What a cell shows. -/
def cellAt (rows : Rows) (p : Position) : Except Misuse Char := do
  let row ← item rows p.y
  item row p.x

def paintCell (rows : Rows) (p : Position) (c : Char) : Except Misuse Rows := do
  let row ← item rows p.y
  let row ← replace row p.x c
  replace rows p.y row

def paintEntity (l : Level) (r : Option Robot) (rows : Rows) (e : Entity) : Except Misuse Rows :=
  if ¬l.Inside e.position then .ok rows
  else if e.taken r then .ok rows
  else do
    let c ← cellAt rows e.position
    if c ≠ Board.emptyCell then return rows
    let glyph ← entry entityGlyphs e.kind
    paintCell rows e.position glyph

def paintRobot (l : Level) (rows : Rows) (r : Robot) : Except Misuse Rows :=
  if ¬l.Inside r.position then .ok rows
  else do
    let glyph ← if r.crashed then pure 'X' else entry robotGlyphs r.facing
    paintCell rows r.position glyph

/-- Paints a blank board: the entities, and the robot over them. -/
def paint (l : Level) (r : Option Robot) : Except Misuse Rows := do
  let blank := List.replicate l.size (List.replicate l.size Board.emptyCell)
  let rows ← l.entities.foldlM (paintEntity l r) blank
  match r with
  | some r => paintRobot l rows r
  | none => return rows

/-- The lines that show a board, unless there can be no row for it. -/
def board (l : Level) (r : Option Robot) : Except (Board.Fault ⊕ Misuse) (List String) :=
  match Board.fault? l.size with
  | some f => .error (.inl f)
  | none => do
    let rows ← (paint l r).mapError .inr
    return rows.map fun row => " ".intercalate (row.map fun c => String.ofList [c])

/-- There are as many rows as the level says, and as many cells in each. -/
structure Fits (l : Level) (rows : Rows) : Prop where
  height : rows.length = l.size
  width : ∀ row ∈ rows, row.length = l.size

/-- The rows with one cell changed. -/
def changeCell (rows : Rows) (p : Position) (f : Char → Char) : Rows :=
  rows.modify p.y.toNat fun row => row.modify p.x.toNat f

variable {l : Level} {rows : Rows} {p : Position}

theorem Fits.blank (l : Level) :
    Fits l (List.replicate l.size (List.replicate l.size Board.emptyCell)) := by
  refine ⟨by simp, ?_⟩
  intro row hrow
  simp [List.eq_of_mem_replicate hrow]

theorem Fits.changeCell (h : Fits l rows) (p : Position) (f : Char → Char) :
    Fits l (changeCell rows p f) := by
  refine ⟨by simpa [Lookup.changeCell] using h.height, ?_⟩
  intro row hrow
  obtain ⟨k, hk⟩ := List.mem_iff_getElem?.mp hrow
  simp only [Lookup.changeCell, List.getElem?_modify, Option.map_eq_map,
    Option.map_eq_some_iff] at hk
  obtain ⟨old, hold, rfl⟩ := hk
  have hlen : old.length = l.size := h.width old (List.mem_of_getElem? hold)
  split <;> simp [hlen]

/-- Inside the board both indexes are those of a cell, so the cell is found and can be changed. -/
theorem Fits.exists_cell (h : Fits l rows) (hin : l.Inside p) :
    ∃ c, cellAt rows p = .ok c ∧
      ∀ f, paintCell rows p (f c) = .ok (Lookup.changeCell rows p f) ∧
        (f c = c → Lookup.changeCell rows p f = rows) := by
  obtain ⟨hx, hxl, hy, hyl⟩ := hin
  have hheight := h.height
  obtain ⟨row, hrow⟩ : ∃ row, rows[p.y.toNat]? = some row :=
    ⟨_, List.getElem?_eq_getElem (by omega)⟩
  have hwidth : row.length = l.size := h.width row (List.mem_of_getElem? hrow)
  obtain ⟨c, hc⟩ : ∃ c, row[p.x.toNat]? = some c := ⟨_, List.getElem?_eq_getElem (by omega)⟩
  have hitem : item rows p.y = .ok row := item_of_nonneg hy hrow
  have hcell : item row p.x = .ok c := item_of_nonneg hx hc
  refine ⟨c, by simp only [cellAt, hitem, hcell, bind, Except.bind], fun f => ?_⟩
  have hset : replace row p.x (f c) = .ok (row.set p.x.toNat (f c)) :=
    replace_of_nonneg hx (by omega) _
  have hsetRow : replace rows p.y (row.set p.x.toNat (f c)) =
      .ok (rows.set p.y.toNat (row.set p.x.toNat (f c))) :=
    replace_of_nonneg hy (by omega) _
  have hchange : Lookup.changeCell rows p f = rows.set p.y.toNat (row.set p.x.toNat (f c)) := by
    simp [Lookup.changeCell, List.modify_eq_set, hrow, hc]
  constructor
  · simp only [paintCell, hitem, hset, hsetRow, hchange, bind, Except.bind]
  · intro hf
    obtain ⟨hlt, hget⟩ := List.getElem?_eq_some_iff.mp hc
    obtain ⟨hlt', hget'⟩ := List.getElem?_eq_some_iff.mp hrow
    rw [hchange, hf, ← hget, List.set_getElem_self, ← hget', List.set_getElem_self]

/-- The rows of a board. -/
def toRows (b : Board) : Rows := b.toList.map Array.toList

theorem toRows_blank (size : Nat) :
    toRows (Board.blank size) = List.replicate size (List.replicate size Board.emptyCell) := by
  simp [toRows, Board.blank]

theorem toRows_modify (b : Board) (k n : Nat) (f : Char → Char) :
    toRows (b.modify k fun row => row.modify n f) =
      (toRows b).modify k fun row => row.modify n f := by
  apply List.ext_getElem?
  intro j
  simp only [toRows, Array.toList_modify, List.getElem?_map, List.getElem?_modify]
  cases b.toList[j]? <;> by_cases hk : k = j <;> simp [hk, Array.toList_modify]

theorem toRows_paint (b : Board) (hin : l.Inside p) (f : Char → Char) :
    toRows (b.paint l p f) = changeCell (toRows b) p f := by
  rw [Board.paint, if_pos hin, toRows_modify, changeCell]

theorem Fits.paint {b : Board} (h : Fits l (toRows b)) (p : Position) (f : Char → Char) :
    Fits l (toRows (b.paint l p f)) := by
  by_cases hin : l.Inside p
  · rw [toRows_paint b hin]
    exact h.changeCell p f
  · rwa [Board.paint, if_neg hin]

theorem Fits.paintEntity {b : Board} (h : Fits l (toRows b)) (r : Option Robot) (e : Entity) :
    Fits l (toRows (b.paintEntity l r e)) := by
  rw [Board.paintEntity]
  split
  · exact h
  · exact h.paint _ _

/-- An entity finds its cell and its glyph, and one off the board is passed over. -/
theorem paintEntity_toRows (b : Board) (r : Option Robot) (e : Entity) (h : Fits l (toRows b)) :
    paintEntity l r (toRows b) e = .ok (toRows (b.paintEntity l r e)) := by
  by_cases hin : l.Inside e.position
  · by_cases htaken : e.taken r = true
    · simp [paintEntity, Board.paintEntity, hin, htaken]
    · obtain ⟨c, hc, hpaint⟩ := h.exists_cell hin
      obtain ⟨hnew, hold⟩ := hpaint fun c => if c = Board.emptyCell then e.kind.glyph else c
      rw [Board.paintEntity, if_neg htaken, toRows_paint b hin]
      by_cases hempty : c = Board.emptyCell
      · simp only [hempty, ↓reduceIte] at hnew
        simp only [paintEntity, hin, htaken, hc, hempty, entry_entityGlyphs, hnew, bind,
          Except.bind, not_true_eq_false, ne_eq, ↓reduceIte, Bool.false_eq_true]
      · rw [hold (by simp [hempty])]
        simp [paintEntity, hin, htaken, hc, hempty, bind, Except.bind, pure, Except.pure]
  · have hsame : b.paintEntity l r e = b := by simp [Board.paintEntity, Board.paint, hin]
    simp [paintEntity, hin, hsame]

theorem foldlM_paintEntity (r : Option Robot) (es : List Entity) (b : Board)
    (h : Fits l (toRows b)) :
    es.foldlM (paintEntity l r) (toRows b) = .ok (toRows (es.foldl (Board.paintEntity l r) b)) ∧
      Fits l (toRows (es.foldl (Board.paintEntity l r) b)) := by
  induction es generalizing b with
  | nil => exact ⟨rfl, h⟩
  | cons e es ih =>
    rw [List.foldlM_cons, paintEntity_toRows b r e h]
    exact ih _ (h.paintEntity r e)

theorem paintRobot_toRows (b : Board) (r : Robot) (h : Fits l (toRows b)) :
    paintRobot l (toRows b) r = .ok (toRows (b.paint l r.position fun _ => r.glyph)) := by
  by_cases hin : l.Inside r.position
  · obtain ⟨c, -, hpaint⟩ := h.exists_cell hin
    rw [toRows_paint b hin, ← (hpaint fun _ => r.glyph).1, paintRobot, if_neg (not_not_intro hin)]
    by_cases hcrash : r.crashed = true
    · simp only [hcrash, Robot.glyph, bind, Except.bind, pure, Except.pure, ↓reduceIte]
    · simp only [hcrash, Robot.glyph, entry_robotGlyphs, bind, Except.bind, Bool.false_eq_true,
        ↓reduceIte]
  · simp only [paintRobot, Board.paint, hin, not_false_eq_true, ↓reduceIte]

/-- Painting finds every cell and every glyph, and the result is the picture. -/
theorem paint_eq (l : Level) (r : Option Robot) : paint l r = .ok (toRows (Board.draw l r)) := by
  obtain ⟨hfold, hfits⟩ := foldlM_paintEntity r l.entities (Board.blank l.size) (by
    rw [toRows_blank]
    exact .blank l)
  rw [toRows_blank] at hfold
  simp only [paint, hfold, bind, Except.bind]
  cases r with
  | none => rfl
  | some r => exact paintRobot_toRows _ r hfits

/-- Nothing keeps a board from being shown but its size. -/
theorem board_eq (l : Level) (r : Option Robot) :
    board l r = ((Board.draw? l r).map Board.rows).mapError .inl := by
  have hlines (b : Board) : ((toRows b).map fun row =>
      " ".intercalate (row.map fun c => String.ofList [c])) = b.rows := by
    simp [Board.rows, toRows]
  rw [board, Board.draw?, paint_eq]
  cases Board.fault? l.size with
  | some f => rfl
  | none => exact congrArg Except.ok (hlines _)

end GridRobot.Lookup
