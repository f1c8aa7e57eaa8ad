import GridRobot.Proofs.Execution.Recorded
import GridRobot.Text.Blank
import GridRobot.Trace.Listing

/-!
# What a listing tells

A listing is a text that can be taken apart again: at the ends of its lines, and each line into its
words, which are the number of an instruction and its name. So nothing of the trace is lost in it,
however long the trace is and though the column of the numbers has three places only.
-/

namespace GridRobot

namespace Text

/-- What separates words: the blanks, and the four control characters that separate units, records,
groups and files. -/
def isSpace (c : Char) : Bool := isBlank c || ('\x1c' ≤ c ∧ c ≤ '\x1f')

/-- The words of a text: what stands between spaces. -/
def words (cs : List Char) : List (List Char) := (cs.splitOnP isSpace).filter (· ≠ [])

/-- The visible characters of ASCII are in words. -/
theorem isSpace_of_visible {c : Char} (hlow : '!' ≤ c) (hhigh : c ≤ '~') : isSpace c = false := by
  have hall : ∀ n : Fin 127, 33 ≤ n.val → isSpace (Char.ofNat n) = false := by decide
  have hlt : c.toNat < 127 := Nat.lt_succ_of_le hhigh
  simpa using hall ⟨c.toNat, hlt⟩ hlow

theorem isSpace_of_isDigit {c : Char} (h : c.isDigit = true) : isSpace c = false := by
  simp only [Char.isDigit, Bool.and_eq_true, decide_eq_true_eq] at h
  exact isSpace_of_visible (Nat.le_trans (by decide) h.1) (Nat.le_trans h.2 (by decide))

theorem words_of_forall {w : List Char} (hne : w ≠ []) (hw : ∀ c ∈ w, isSpace c = false) :
    words w = [w] := by
  simp [words, List.splitOnP_eq_singleton hw, hne]

theorem words_blank (cs : List Char) : words (' ' :: cs) = words cs := by
  rw [words, words, List.splitOnP_cons_eq_if_modifyHead, if_pos (by decide)]
  rfl

theorem words_blanks (n : Nat) (cs : List Char) : words (List.replicate n ' ' ++ cs) = words cs := by
  induction n with
  | zero => rfl
  | succ n ih => rw [List.replicate_succ, List.cons_append, words_blank, ih]

theorem words_append_blank {w : List Char} (hne : w ≠ []) (hw : ∀ c ∈ w, isSpace c = false)
    (cs : List Char) : words (w ++ ' ' :: cs) = w :: words cs := by
  rw [words, List.splitOnP_append_cons_of_forall_mem hw ' ' (by decide)]
  simp [words, hne]

end Text

namespace Instruction

theorem isSpace_of_mem_text (i : Instruction) :
    ∀ c ∈ i.text.toList, Text.isSpace c = false := by
  have hall : (i.text.toList.all fun c => !Text.isSpace c) = true := by cases i <;> decide
  simpa using hall

theorem toList_text_ne_nil (i : Instruction) : i.text.toList ≠ [] := by cases i <;> decide

end Instruction

namespace Program

/-- The line of an instruction in a listing. -/
def listingLine (i : Instruction) (n : Nat) : String :=
  "  " ++ Text.padLeft 3 (toString n) ++ "  " ++ i.text

theorem toList_listingLine (i : Instruction) (n : Nat) :
    (listingLine i n).toList =
      List.replicate (2 + (3 - (toString n).length)) ' ' ++
        (Nat.toDigits 10 n ++ ' ' :: ' ' :: i.text.toList) := by
  simp [listingLine, Text.padLeft, Nat.add_comm 2, List.replicate_succ]

/-- Number and name stay apart also where the number is wider than its column. -/
theorem words_listingLine (i : Instruction) (n : Nat) :
    Text.words (listingLine i n).toList = [Nat.toDigits 10 n, i.text.toList] := by
  have hdigits : ∀ c ∈ Nat.toDigits 10 n, Text.isSpace c = false := fun c hc =>
    Text.isSpace_of_isDigit (Nat.isDigit_of_mem_toDigits (by decide) (by decide) hc)
  rw [toList_listingLine, Text.words_blanks,
    Text.words_append_blank Nat.toDigits_ne_nil hdigits, Text.words_blank,
    Text.words_of_forall i.toList_text_ne_nil i.isSpace_of_mem_text]

theorem newline_not_mem_listingLine (i : Instruction) (n : Nat) :
    '\n' ∉ (listingLine i n).toList := by
  rw [toList_listingLine]
  intro h
  have hdigit : '\n' ∉ Nat.toDigits 10 n := fun h =>
    absurd (Nat.isDigit_of_mem_toDigits (by decide) (by decide) h) (by decide)
  have htext : '\n' ∉ i.text.toList := fun h => absurd (i.isSpace_of_mem_text _ h) (by decide)
  simp [hdigit, htext] at h

variable {p q : Program}

theorem toList_listing (p : Program) :
    p.listing.toList =
      ['\n'].intercalate (p.compile.toList.zipIdx.map fun e => (listingLine e.1 e.2).toList) := by
  rw [listing, Text.joinLines, String.toList_intercalate, List.map_map]
  rfl

/-- The lines of a listing. -/
def listed (p : Program) : List (List Char) := p.listing.toList.splitOn '\n'

theorem listed_eq (h : p.compile ≠ #[]) :
    p.listed = p.compile.toList.zipIdx.map fun e => (listingLine e.1 e.2).toList := by
  rw [listed, toList_listing, List.splitOn_intercalate]
  · intro line hline
    obtain ⟨e, -, rfl⟩ := List.mem_map.mp hline
    exact newline_not_mem_listingLine e.1 e.2
  · simpa using h

theorem length_listed (h : p.compile ≠ #[]) : p.listed.length = p.compile.size := by
  simp [listed_eq h]

/-- On the line of an index are the index and the name of the instruction there. -/
theorem words_listed {k : Nat} {i : Instruction} (h : p.compile[k]? = some i) :
    ∃ line, p.listed[k]? = some line ∧
      Text.words line = [Nat.toDigits 10 k, i.text.toList] := by
  have hne : p.compile ≠ #[] := by
    intro he
    simp [he] at h
  rw [← Array.getElem?_toList] at h
  exact ⟨_, by simp [listed_eq hne, h], words_listingLine i k⟩

theorem listing_eq_empty_iff : p.listing = "" ↔ p.compile = #[] := by
  constructor
  · intro h
    by_contra hne
    obtain ⟨i, hi⟩ : ∃ i, p.compile[0]? = some i :=
      ⟨_, Array.getElem?_eq_getElem (Array.size_pos_iff.mpr hne)⟩
    obtain ⟨line, hline, hwords⟩ := words_listed hi
    rw [listed, h] at hline
    cases hline
    cases hwords
  · intro h
    simp [listing, h, Text.joinLines]

/-- A listing has no less in it than the trace. -/
theorem compile_eq_of_listing_eq (h : p.listing = q.listing) : p.compile = q.compile := by
  have hempty : p.compile = #[] ↔ q.compile = #[] := by
    rw [← listing_eq_empty_iff, ← listing_eq_empty_iff, h]
  have hlisted : p.listed = q.listed := by rw [listed, listed, h]
  by_cases hp : p.compile = #[]
  · rw [hp, hempty.mp hp]
  · have hq : q.compile ≠ #[] := fun hq => hp (hempty.mpr hq)
    have hsize : p.compile.size = q.compile.size := by
      rw [← length_listed hp, hlisted, length_listed hq]
    apply Array.ext hsize
    intro k hk hk'
    obtain ⟨line, hline, hwords⟩ := words_listed (Array.getElem?_eq_getElem hk)
    obtain ⟨line', hline', hwords'⟩ := words_listed (Array.getElem?_eq_getElem hk')
    rw [hlisted, hline'] at hline
    cases hline
    rw [hwords'] at hwords
    have htext : (p.compile[k]).text.toList = (q.compile[k]).text.toList := by
      simpa using hwords.symm
    exact Instruction.text_inj.mp (String.toList_injective htext)

/-- What is recorded as a step is an instruction of the trace, under its index. -/
theorem of_getElem?_recorded {level : Level} {n k : Nat} {s : RecordedStep}
    (h : (p.recorded level n)[k]? = some s) : s.index = k ∧ p.compile[k]? = some s.instruction := by
  rw [recorded, List.getElem?_mapIdx, Option.map_eq_some_iff] at h
  obtain ⟨i, hi, rfl⟩ := h
  rw [List.getElem?_take] at hi
  split at hi
  · exact ⟨rfl, by rwa [Array.getElem?_toList] at hi⟩
  · cases hi

/-- A listing can be read back. It is empty if the trace is, and otherwise has a line for each
instruction, whose words are the index in decimal, however wide, and the name of the instruction. So
two programs have the same listing exactly if they have the same trace, and in every execution the
instruction that is recorded as a step is the one on the line of that index. -/
theorem listing_lossless (p : Program) :
    let lines := p.listing.toList.splitOn '\n'
    (p.listing = "" ↔ p.compile = #[]) ∧
    (p.compile ≠ #[] → lines.length = p.compile.size) ∧
    (∀ k i, p.compile[k]? = some i → ∃ line, lines[k]? = some line ∧
      Text.words line = [Nat.toDigits 10 k, i.text.toList]) ∧
    (∀ q : Program, p.listing = q.listing ↔ p.compile = q.compile) ∧
    (∀ level config e, p.execute level config = .ok e → ∀ k s, e.steps[k]? = some s →
      s.index = k ∧ ∃ line, lines[k]? = some line ∧
        Text.words line = [Nat.toDigits 10 k, s.instruction.text.toList]) := by
  intro lines
  refine ⟨listing_eq_empty_iff, length_listed, fun k i => words_listed, ?_, ?_⟩
  · intro q
    refine ⟨compile_eq_of_listing_eq, fun h => ?_⟩
    rw [listing, listing, h]
  · intro level config e hexec k s hs
    obtain ⟨n, -, rfl⟩ := exists_executionAfter hexec
    obtain ⟨hindex, hi⟩ := of_getElem?_recorded hs
    exact ⟨hindex, words_listed hi⟩

end Program

end GridRobot
