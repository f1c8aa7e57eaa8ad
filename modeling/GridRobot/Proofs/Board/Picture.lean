import Mathlib.Data.List.Find
import GridRobot.Proofs.Board.Painting
import GridRobot.Proofs.Lookup.Table

/-!
# The picture of a level

`Shows` is the rule of the picture, cell by cell: the robot if it is there, else the first entity
there that the robot has not collected. The text of a board can be taken apart again at the ends of
its lines and at the blanks, and then each cell shows what the rule says, on every level and
wherever the robot and the entities are.
-/

namespace GridRobot

/-- A coin that the robot has is gone from its cell. -/
def Entity.Gone (r : Option Robot) (e : Entity) : Prop :=
  e.kind = .coin ∧ ∃ s, r = some s ∧ e.id ∈ s.coins

theorem Entity.taken_iff {r : Option Robot} {e : Entity} : e.taken r = true ↔ e.Gone r := by
  cases r <;> simp [taken, Gone]

/-- What the picture of a level shows on a cell. The robot hides what is under it, and an entity
what is declared behind it. -/
inductive Level.Shows (l : Level) (r : Option Robot) (p : Position) : Char → Prop
  | wreck {s : Robot} (robot : r = some s) (here : s.position = p) (crashed : s.crashed = true) :
      Shows l r p 'X'
  | robot {s : Robot} {c : Char} (robot : r = some s) (here : s.position = p)
      (crashed : s.crashed = false) (glyph : (s.facing, c) ∈ Lookup.robotGlyphs) : Shows l r p c
  | entity {before after : List Entity} {e : Entity} {c : Char}
      (elsewhere : ∀ s, r = some s → s.position ≠ p) (entities : l.entities = before ++ e :: after)
      (here : e.position = p) (left : ¬e.Gone r)
      (first : ∀ d ∈ before, d.position = p → d.Gone r)
      (glyph : (e.kind, c) ∈ Lookup.entityGlyphs) : Shows l r p c
  | empty (elsewhere : ∀ s, r = some s → s.position ≠ p)
      (none : ∀ e ∈ l.entities, e.position = p → e.Gone r) : Shows l r p '.'

theorem Direction.mem_robotGlyphs_iff {d : Direction} {c : Char} :
    (d, c) ∈ Lookup.robotGlyphs ↔ c = d.glyph := by
  cases d <;> simp [Lookup.robotGlyphs, glyph]

theorem EntityKind.mem_entityGlyphs_iff {k : EntityKind} {c : Char} :
    (k, c) ∈ Lookup.entityGlyphs ↔ c = k.glyph := by
  cases k <;> simp [Lookup.entityGlyphs, glyph]

namespace Level

variable {l : Level} {r : Option Robot} {p : Position} {c : Char} {es : List Entity} {e : Entity}

theorem find?_left_eq_some_iff :
    (es.find? fun e => e.position = p ∧ e.taken r = false) = some e ↔
      (e.position = p ∧ ¬e.Gone r) ∧ ∃ before after, es = before ++ e :: after ∧
        ∀ d ∈ before, d.position = p → d.Gone r := by
  simp [List.find?_eq_some_iff_append, ← Entity.taken_iff, imp_iff_not_or]

theorem find?_left_eq_none_iff :
    (es.find? fun e => e.position = p ∧ e.taken r = false) = none ↔
      ∀ e ∈ es, e.position = p → e.Gone r := by
  simp [← Entity.taken_iff]

/-- Every cell of the picture shows what the rule says. -/
theorem shows_glyphAt (l : Level) (r : Option Robot) (p : Position) :
    l.Shows r p (l.glyphAt r p) := by
  by_cases hhere : ∃ s, r = some s ∧ s.position = p
  · obtain ⟨s, rfl, hp⟩ := hhere
    rw [Board.glyphAt_of_here hp, Robot.glyph]
    cases hc : s.crashed with
    | true => exact .wreck rfl hp hc
    | false => exact .robot rfl hp hc (Direction.mem_robotGlyphs_iff.mpr rfl)
  · have helsewhere : ∀ s, r = some s → s.position ≠ p := fun s hs hp => hhere ⟨s, hs, hp⟩
    rw [Board.glyphAt_of_elsewhere helsewhere, Board.shown]
    split
    · rename_i e hfind
      obtain ⟨⟨he, hleft⟩, before, after, hentities, hfirst⟩ := find?_left_eq_some_iff.mp hfind
      have hglyph := EntityKind.mem_entityGlyphs_iff (k := e.kind).mpr rfl
      exact .entity helsewhere hentities he hleft hfirst hglyph
    · rename_i hfind
      exact .empty helsewhere (find?_left_eq_none_iff.mp hfind)

/-- The rule says what a cell shows and leaves no choice. -/
theorem Shows.glyphAt_eq (h : l.Shows r p c) : l.glyphAt r p = c := by
  cases h with
  | wreck robot here crashed => rw [robot, Board.glyphAt_of_here here, Robot.glyph, if_pos crashed]
  | robot robot here crashed glyph =>
    rw [robot, Board.glyphAt_of_here here, Robot.glyph, crashed,
      Direction.mem_robotGlyphs_iff.mp glyph]
    rfl
  | entity elsewhere entities here left first glyph =>
    have hfind := find?_left_eq_some_iff.mpr ⟨⟨here, left⟩, _, _, entities, first⟩
    rw [Board.glyphAt_of_elsewhere elsewhere, Board.shown, hfind,
      EntityKind.mem_entityGlyphs_iff.mp glyph]
  | empty elsewhere none =>
    rw [Board.glyphAt_of_elsewhere elsewhere, Board.shown, find?_left_eq_none_iff.mpr none]
    rfl

theorem glyphAt_eq_iff : l.glyphAt r p = c ↔ l.Shows r p c :=
  ⟨fun h => h ▸ l.shows_glyphAt r p, Shows.glyphAt_eq⟩

/-- The characters that show a robot. -/
def robotMarks : List Char := ['X', '^', '>', 'v', '<']

theorem Shows.mem_marks_iff (h : l.Shows r p c) :
    c ∈ robotMarks ↔ ∃ s, r = some s ∧ s.position = p := by
  cases h with
  | wreck robot here crashed => exact iff_of_true (by decide) ⟨_, robot, here⟩
  | @robot s _ robot here crashed glyph =>
    rw [Direction.mem_robotGlyphs_iff.mp glyph]
    refine iff_of_true ?_ ⟨s, robot, here⟩
    cases s.facing <;> decide
  | @entity _ _ e _ elsewhere entities here left first glyph =>
    rw [EntityKind.mem_entityGlyphs_iff.mp glyph]
    refine iff_of_false ?_ fun ⟨s, hs, hp⟩ => elsewhere s hs hp
    cases e.kind <;> decide
  | empty elsewhere none =>
    exact iff_of_false (by decide) fun ⟨s, hs, hp⟩ => elsewhere s hs hp

/-- What a cell shows is not taken for a separator. -/
theorem Shows.not_separator (h : l.Shows r p c) : c ≠ ' ' ∧ c ≠ '\n' := by
  cases h with
  | wreck => decide
  | @robot s _ _ _ _ glyph =>
    rw [Direction.mem_robotGlyphs_iff.mp glyph]
    cases s.facing <;> decide
  | @entity _ _ e _ _ _ _ _ _ glyph =>
    rw [EntityKind.mem_entityGlyphs_iff.mp glyph]
    cases e.kind <;> decide
  | empty => decide

end Level

namespace Board

open Level (robotMarks)

/-- The rows of a board as one text. -/
def text (b : Board) : String := "\n".intercalate b.rows

/-- A character that is not the separator is found as often among the parts. -/
theorem countP_intercalate {P : Char → Bool} {sep : Char} (h : P sep = false)
    (parts : List (List Char)) :
    ([sep].intercalate parts).countP P = parts.flatten.countP P := by
  induction parts with
  | nil => rfl
  | cons part parts ih =>
    cases parts with
    | nil => simp
    | cons part' parts =>
      rw [List.intercalate_cons_cons, List.countP_append, ih, List.flatten_cons, List.countP_append]
      simp [h]

/-- The characters of a row, with blanks between the cells. -/
def rowChars (size : Nat) (f : Position → Char) (y : Nat) : List Char :=
  [' '].intercalate ((List.range size).map fun (x : Nat) => [f ⟨x, y⟩])

theorem toList_text_ofCells (size : Nat) (f : Position → Char) :
    (ofCells size f).text.toList =
      ['\n'].intercalate ((List.range size).map (rowChars size f)) := by
  rw [text, String.toList_intercalate, rows, ofCells]
  simp only [Array.toList_map, Array.toList_range, List.map_map]
  congr 2
  funext y
  simp [rowChars, Function.comp_def]

theorem countP_rowChars {P : Char → Bool} (h : P ' ' = false) (size : Nat) (f : Position → Char)
    (y : Nat) : (rowChars size f y).countP P =
      ((List.range size).map fun (x : Nat) => (⟨x, y⟩ : Position)).countP (P ∘ f) := by
  rw [rowChars, countP_intercalate h, ← List.flatMap_def, ← List.map_eq_flatMap, List.countP_map,
    List.countP_map]
  rfl

/-- But for the separators, the text has one character for each cell. -/
theorem countP_text {P : Char → Bool} (h : P ' ' = false) (h' : P '\n' = false) (size : Nat)
    (f : Position → Char) :
    (ofCells size f).text.toList.countP P = (cells size).countP (P ∘ f) := by
  rw [toList_text_ofCells, countP_intercalate h', List.countP_flatten, cells, List.countP_flatMap,
    List.map_map]
  congr 1
  exact List.map_congr_left fun y _ => countP_rowChars h size f y

theorem newline_not_mem_rowChars (size : Nat) {f : Position → Char} (hf : ∀ p, f p ≠ '\n')
    (y : Nat) : '\n' ∉ rowChars size f y := by
  have hcount : (rowChars size f y).countP (· == '\n') = 0 := by
    rw [countP_rowChars rfl, List.countP_eq_zero]
    simp [hf]
  exact List.count_eq_zero.mp hcount

/-- The text of a board is taken apart at the ends of the lines and at the blanks. -/
theorem splitOn_text {size : Nat} (hsize : 0 < size) {f : Position → Char}
    (hblank : ∀ p, f p ≠ ' ') (hnewline : ∀ p, f p ≠ '\n') :
    ((ofCells size f).text.toList.splitOn '\n').map (List.splitOn ' ') =
      (List.range size).map fun (y : Nat) => (List.range size).map fun (x : Nat) => [f ⟨x, y⟩] := by
  have hne {α : Type} (g : Nat → α) : (List.range size).map g ≠ [] := by
    simp
    omega
  rw [toList_text_ofCells, List.splitOn_intercalate _ _ (hne _), List.map_map]
  · refine List.map_congr_left fun y _ => List.splitOn_intercalate _ ?_ (hne _)
    intro part hpart
    obtain ⟨x, -, rfl⟩ := List.mem_map.mp hpart
    simpa using (hblank ⟨x, y⟩).symm
  · intro row hrow
    obtain ⟨y, -, rfl⟩ := List.mem_map.mp hrow
    exact newline_not_mem_rowChars size hnewline y

/-- Entities that are not drawn on a cell may as well not be there. -/
theorem shown_filter {es : List Entity} {r r' : Option Robot} {p : Position} {keep : Entity → Bool}
    (h : ∀ e, e.position = p → (keep e = true ∧ e.taken r' = false ↔ e.taken r = false)) :
    shown (es.filter keep) r' p = shown es r p := by
  have hfind : (es.filter keep).find? (fun e => e.position = p ∧ e.taken r' = false) =
      es.find? fun e => e.position = p ∧ e.taken r = false := by
    rw [List.find?_filter]
    refine List.find?_congr fun e _ => ?_
    rw [Bool.eq_iff_iff]
    simp only [Bool.decide_and, Bool.and_eq_true, decide_eq_true_eq]
    rw [and_left_comm]
    exact and_congr_right (h e)
  rw [shown, shown, hfind]

theorem draw_of_inside (l : Level) (r : Option Robot) :
    draw { l with entities := l.entities.filter fun e => l.Inside e.position } r = draw l r := by
  rw [draw_eq, draw_eq]
  apply ofCells_congr
  intro p hin
  by_cases hhere : ∃ s, r = some s ∧ s.position = p
  · obtain ⟨s, rfl, hp⟩ := hhere
    rw [glyphAt_of_here hp, glyphAt_of_here hp]
  · have helsewhere : ∀ s, r = some s → s.position ≠ p := fun s hs hp => hhere ⟨s, hs, hp⟩
    rw [glyphAt_of_elsewhere helsewhere, glyphAt_of_elsewhere helsewhere]
    have hin' : l.Inside p := hin
    apply shown_filter
    intro e he
    simp [he, hin']

theorem draw_of_not_inside {l : Level} {s : Robot} (h : ¬l.Inside s.position) :
    draw l (some s) =
      draw { l with entities := l.entities.filter fun e => e.taken (some s) = false } none := by
  rw [draw_eq, draw_eq]
  apply ofCells_congr
  intro p hin
  have helsewhere : ∀ s', some s = some s' → s'.position ≠ p := by
    rintro s' ⟨⟩ rfl
    exact h hin
  rw [glyphAt_of_elsewhere helsewhere, glyphAt_of_elsewhere (by simp)]
  refine (shown_filter fun e _ => ?_).symm
  simp [Entity.taken, imp_iff_not_or]

theorem countP_robotMarks_none (l : Level) :
    (draw l none).text.toList.countP (· ∈ robotMarks) = 0 := by
  rw [draw_eq, countP_text (by decide) (by decide), List.countP_eq_zero]
  intro p _
  simp [(l.shows_glyphAt none p).mem_marks_iff]

/-- A robot is drawn on its cell and nowhere else. -/
theorem countP_robotMarks (l : Level) (s : Robot) :
    (draw l (some s)).text.toList.countP (· ∈ robotMarks) =
      if l.Inside s.position then 1 else 0 := by
  have hcount : (cells l.size).countP ((fun c => decide (c ∈ robotMarks)) ∘ l.glyphAt (some s)) =
      (cells l.size).count s.position := by
    refine List.countP_congr fun p _ => ?_
    rw [Function.comp_apply, decide_eq_true_iff, (l.shows_glyphAt (some s) p).mem_marks_iff,
      beq_iff_eq]
    constructor
    · rintro ⟨_, ⟨⟩, rfl⟩
      rfl
    · rintro rfl
      exact ⟨s, rfl, rfl⟩
  rw [draw_eq, countP_text (by decide) (by decide), hcount, (nodup_cells l.size).count]
  simp only [mem_cells]

theorem draw?_eq_ok_iff {l : Level} {r : Option Robot} {b : Board} :
    draw? l r = .ok b ↔ 8 * l.size < Nat.pow 2 63 ∧ b = draw l r := by
  constructor
  · intro h
    cases hf : fault? l.size with
    | some f => simp only [draw?, hf, reduceCtorEq] at h
    | none =>
      simp only [draw?, hf, Except.ok.injEq] at h
      exact ⟨fault?_eq_none_iff.mp hf, h.symm⟩
  · rintro ⟨h, rfl⟩
    exact draw?_eq_ok h

/-- A picture is exactly its level. Its text has a line for each row and in each line a character
for each cell, with one blank between any two, and the character is the one that the rule of the
picture gives for the cell. What is drawn, unless there can be no row for the board, is this
picture. What is off the board changes nothing in it: neither an entity, nor a robot, which then
only has its coins left out; and there is one character that shows a robot exactly if there is one
on the board, and never a second. -/
theorem text_draw_shows (l : Level) (r : Option Robot) :
    let text := (draw l r).text.toList
    ((text.splitOn '\n').map (List.splitOn ' ') =
      (List.range l.size).map fun (y : Nat) => (List.range l.size).map fun (x : Nat) =>
        [l.glyphAt r ⟨x, y⟩]) ∧
    (∀ p c, l.glyphAt r p = c ↔ l.Shows r p c) ∧
    (∀ b, draw? l r = .ok b ↔ 8 * l.size < Nat.pow 2 63 ∧ b = draw l r) ∧
    draw { l with entities := l.entities.filter fun e => l.Inside e.position } r = draw l r ∧
    (∀ s, r = some s → ¬l.Inside s.position →
      draw l r = draw { l with entities := l.entities.filter fun e => e.taken r = false } none) ∧
    (text.countP (· ∈ robotMarks) = 1 ↔ ∃ s, r = some s ∧ l.Inside s.position) ∧
    text.countP (· ∈ robotMarks) ≤ 1 := by
  intro text
  have hseparator (p : Position) : l.glyphAt r p ≠ ' ' ∧ l.glyphAt r p ≠ '\n' :=
    (l.shows_glyphAt r p).not_separator
  refine ⟨?_, fun _ _ => Level.glyphAt_eq_iff, fun _ => draw?_eq_ok_iff, draw_of_inside l r, ?_, ?_⟩
  · simp only [text, draw_eq]
    exact splitOn_text l.size_pos (fun p => (hseparator p).1) fun p => (hseparator p).2
  · rintro s rfl hout
    exact draw_of_not_inside hout
  · cases r with
    | none =>
      have hmarks : text.countP (· ∈ robotMarks) = 0 := countP_robotMarks_none l
      simp [hmarks]
    | some s =>
      have hmarks : text.countP (· ∈ robotMarks) = if l.Inside s.position then 1 else 0 :=
        countP_robotMarks l s
      by_cases hin : l.Inside s.position <;> simp [hmarks, hin]

end Board

end GridRobot
