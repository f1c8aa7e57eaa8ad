import Mathlib
import GridRobot.Proofs.Robot.Journey

/-!
# The lines of a log as text

The texts of the lines that steps write are told apart by their first letters and, for the lines
with a cell, by the two coordinates between the brackets: neither decimal has a comma in it, so the
comma between them is where a reader finds it. A log that holds no other lines can be read back from
its text.
-/

namespace GridRobot

namespace Position

/-- The coordinates and all that follows them in a line of the log. -/
def chars (p : Position) : List Char := p.x.repr.toList ++ ',' :: ' ' :: (p.y.repr.toList ++ [')'])

theorem comma_not_mem_repr (n : Int) : ',' ∉ n.repr.toList := by
  have digits : ∀ k : Nat, ',' ∉ k.repr.toList := by
    intro k hk
    rw [Nat.repr_eq_ofList_toDigits, String.toList_ofList] at hk
    exact absurd (Nat.isDigit_of_mem_toDigits (by decide) (by decide) hk) (by decide)
  rw [Int.repr_eq_if]
  split
  · exact digits _
  · simpa using digits _

theorem chars_inj {p q : Position} (h : p.chars = q.chars) : p = q := by
  have htail : ',' ∉ ' ' :: (p.y.repr.toList ++ [')']) := by
    simpa using comma_not_mem_repr p.y
  obtain ⟨hx, -, hy⟩ := (List.append_cons_inj_of_notMem (comma_not_mem_repr p.x) htail).mp h
  have hy' : p.y.repr.toList = q.y.repr.toList :=
    List.append_cancel_right (List.cons.inj hy).2
  cases p
  cases q
  rw [Position.mk.injEq]
  exact ⟨Int.repr_inj.mp (String.toList_inj.mp hx), Int.repr_inj.mp (String.toList_inj.mp hy')⟩

end Position

namespace LogLine

theorem toList_text_moved (p : Position) :
    (moved p).text.toList = "Moved to (".toList ++ p.chars := by
  have htext : (moved p).text = "Moved to (" ++ p.x.repr ++ ", " ++ p.y.repr ++ ")" := rfl
  rw [htext]
  simp only [String.toList_append, List.append_assoc]
  rfl

theorem toList_text_reversed (p : Position) :
    (reversed p).text.toList = "Reversed to (".toList ++ p.chars := by
  have htext : (reversed p).text = "Reversed to (" ++ p.x.repr ++ ", " ++ p.y.repr ++ ")" := rfl
  rw [htext]
  simp only [String.toList_append, List.append_assoc]
  rfl

/-- The first letter of a line that a step writes. -/
def initial : LogLine → Char
  | online => 'S'
  | turnedLeft | turnedRight | target => 'T'
  | moved _ => 'M'
  | reversed _ => 'R'
  | collision | coin => 'C'
  | remark _ => ' '

theorem head?_text {line : LogLine} (h : line.isRemark = false) :
    line.text.toList.head? = some line.initial := by
  cases line with
  | remark s => cases h
  | moved p => rw [toList_text_moved]; rfl
  | reversed p => rw [toList_text_reversed]; rfl
  | online | turnedLeft | turnedRight | collision | coin | target => rfl

theorem text_inj_of_not_remark {a b : LogLine} (ha : a.isRemark = false) (hb : b.isRemark = false)
    (h : a.text = b.text) : a = b := by
  have hinitial : a.initial = b.initial := by
    rw [← Option.some_inj, ← head?_text ha, ← head?_text hb, h]
  have hchars : a.text.toList = b.text.toList := by rw [h]
  cases a with
  | remark s => cases ha
  | moved p =>
    cases b with
    | moved q =>
      rw [toList_text_moved, toList_text_moved] at hchars
      rw [Position.chars_inj (List.append_cancel_left hchars)]
    | remark s => cases hb
    | _ => simp [initial] at hinitial
  | reversed p =>
    cases b with
    | reversed q =>
      rw [toList_text_reversed, toList_text_reversed] at hchars
      rw [Position.chars_inj (List.append_cancel_left hchars)]
    | remark s => cases hb
    | _ => simp [initial] at hinitial
  | _ =>
    cases b with
    | remark s => cases hb
    | moved q => simp [initial] at hinitial
    | reversed q => simp [initial] at hinitial
    | _ => first | rfl | exact absurd h (by decide)

theorem eq_of_map_text_eq {as bs : List LogLine} (ha : ∀ a ∈ as, a.isRemark = false)
    (hb : ∀ b ∈ bs, b.isRemark = false) (h : as.map text = bs.map text) : as = bs := by
  induction as generalizing bs with
  | nil => rw [eq_comm, ← List.map_eq_nil_iff, ← h, List.map_nil]
  | cons a as ih =>
    cases bs with
    | nil => simp at h
    | cons b bs =>
      rw [List.forall_mem_cons] at ha hb
      rw [List.map_cons, List.map_cons, List.cons.injEq] at h
      rw [text_inj_of_not_remark ha.1 hb.1 h.1, ih ha.2 hb.2 h.2]

end LogLine

namespace Robot

variable {l : Level} {r : Robot}

/-- All lines of the log are lines that steps write. -/
def Plain (r : Robot) : Prop := ∀ line ∈ r.log, line.isRemark = false

theorem start_plain (l : Level) : (start l).Plain := by
  intro line h
  rw [List.mem_singleton.mp h]
  rfl

theorem note_plain {line : LogLine} (h : r.Plain) (hl : line.isRemark = false) :
    (r.note line).Plain := by
  intro line' hmem
  rcases List.mem_cons.mp hmem with rfl | hmem
  · exact hl
  · exact h line' hmem

theorem step_plain (i : Instruction) (hr : r.terminal = false) (h : r.Plain) :
    (step l r i).Plain := by
  rcases step_cases (l := l) i hr with ⟨b, -, he⟩ | ⟨-, next, hl, he⟩
  · rw [he]
    exact note_plain h rfl
  · have hnext : next.Plain := by cases hl <;> exact note_plain h rfl
    have hcollect : (next.collect l).Plain := by
      rcases collect_cases next l with ⟨c, -, -, hc⟩ | ⟨-, hc⟩ <;> rw [hc]
      · exact note_plain hnext rfl
      · exact hnext
    rw [he]
    rcases checkGoal_cases (next.collect l) l with ⟨-, hg⟩ | ⟨-, hg⟩ <;> rw [hg]
    · exact note_plain hcollect rfl
    · exact hcollect

theorem run_plain (l : Level) (t : List Instruction) : (run l (start l) t).Plain :=
  run_invariant (fun _ i hr h => step_plain i hr h) t (start_plain l)

/-- In a log without remarks, a text stands for one line. -/
theorem Plain.text_eq_iff (h : r.Plain) {line a : LogLine} (hmem : line ∈ r.log)
    (ha : a.isRemark = false) : line.text = a.text ↔ line = a :=
  ⟨LogLine.text_inj_of_not_remark (h line hmem) ha, congrArg LogLine.text⟩

/-- The text of a log without remarks tells the log. -/
theorem Plain.log_eq_of_lines_eq {r' : Robot} (h : r.Plain) (h' : r'.Plain)
    (he : r.lines = r'.lines) : r.log = r'.log := by
  have hmap : r.log.map LogLine.text = r'.log.map LogLine.text := by
    simpa only [lines, List.reverse_inj] using he
  exact LogLine.eq_of_map_text_eq h h' hmap

end Robot

end GridRobot
