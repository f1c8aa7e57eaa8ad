import Mathlib.Data.List.Infix
import GridRobot.Block.Text

/-!
# Blocks are told apart by their texts

Brackets and commas occur at every depth of a text, and `move` is also the beginning of the text of
another block. But behind a block there is the end of the text, a comma or a bracket, and none of
these goes on with a name. So of two texts that are the same, blocks and all that is behind them,
the blocks are the same.
-/

namespace GridRobot

namespace Block

variable {r s : List Char}

/-- The letter that the text of a block begins with. -/
def initial : Block → Char
  | basic .move | basic .moveBack => 'm'
  | basic .turnLeft | basic .turnRight => 't'
  | loop _ _ => 'r'

theorem head?_opening : ∀ n : Fin 11, (opening n).head? = some 'r' := by decide +kernel

theorem head?_write (b : Block) (r : List Char) : (b.write r).head? = some b.initial := by
  cases b with
  | basic i => cases i <;> rfl
  | loop n body => rw [write, List.head?_append, head?_opening, Option.some_or, initial]

theorem initial_ne_bracket (b : Block) : b.initial ≠ ']' := by
  cases b with
  | basic i => cases i <;> decide
  | loop n body => simp [initial]

theorem initial_basic_ne_loop (i : Instruction) (n : Fin 11) (body : List Block) :
    (basic i).initial ≠ (loop n body).initial := by
  cases i <;> simp [initial]

theorem write_ne_bracket (b : Block) (r s : List Char) : b.write r ≠ ']' :: s := by
  intro h
  have hhead := congrArg List.head? h
  rw [head?_write, List.head?_cons, Option.some_inj] at hhead
  exact b.initial_ne_bracket hhead

/-- What follows a block does not go on with the name of an instruction. -/
def Ends (rest : List Char) : Prop := rest.head? ≠ some '_'

/-- A name that begins another one goes on there with an underscore. -/
theorem text_prefix {i j : Instruction} (h : i.text.toList <+: j.text.toList) :
    i = j ∨ ∃ more, j.text.toList = i.text.toList ++ '_' :: more := by
  revert h
  cases i <;> cases j <;> simp [Instruction.text]

theorem eq_of_text_begins {i j : Instruction} (hp : i.text.toList <+: j.text.toList) (hr : Ends r)
    (h : i.text.toList ++ r = j.text.toList ++ s) : i = j := by
  rcases text_prefix hp with he | ⟨more, hmore⟩
  · exact he
  · rw [hmore, List.append_assoc, List.append_cancel_left_eq] at h
    exact absurd (congrArg List.head? h) hr

theorem text_append_inj {i j : Instruction} (hr : Ends r) (hs : Ends s)
    (h : i.text.toList ++ r = j.text.toList ++ s) : i = j ∧ r = s := by
  have hi : i.text.toList <+: j.text.toList ++ s := h ▸ List.prefix_append _ _
  have hj : j.text.toList <+: j.text.toList ++ s := List.prefix_append _ _
  obtain rfl : i = j := by
    rcases List.prefix_or_prefix_of_prefix hi hj with hp | hp
    · exact eq_of_text_begins hp hr h
    · exact (eq_of_text_begins hp hs h.symm).symm
  exact ⟨rfl, List.append_cancel_left h⟩

/-- The blank behind a count ends it, so no opening begins another one. -/
theorem eq_of_opening_begins : ∀ m n : Fin 11, opening m <+: opening n → m = n := by decide +kernel

theorem opening_append_inj {m n : Fin 11} (h : opening m ++ r = opening n ++ s) :
    m = n ∧ r = s := by
  have hm : opening m <+: opening n ++ s := h ▸ List.prefix_append _ _
  have hn : opening n <+: opening n ++ s := List.prefix_append _ _
  obtain rfl : m = n := by
    rcases List.prefix_or_prefix_of_prefix hm hn with hp | hp
    · exact eq_of_opening_begins m n hp
    · exact (eq_of_opening_begins n m hp).symm
  exact ⟨rfl, List.append_cancel_left h⟩

/-- What the text of a body has behind its first block. -/
def writeMore : List Block → List Char → List Char
  | [], rest => rest
  | b :: bs, rest => separator ++ write b (writeMore bs rest)

theorem writeAll_cons (b : Block) (bs : List Block) (rest : List Char) :
    writeAll (b :: bs) rest = write b (writeMore bs rest) := by
  induction bs generalizing b with
  | nil => rfl
  | cons c bs ih => rw [writeAll, ih, writeMore]

theorem ends_writeMore (bs : List Block) (r : List Char) : Ends (writeMore bs (']' :: r)) := by
  cases bs <;> simp [writeMore, separator, Ends]

/-- The text of a block tells which block it is, and where what follows it begins. -/
def Unambiguous (a : Block) : Prop :=
  ∀ b r s, Ends r → Ends s → a.write r = b.write s → a = b ∧ r = s

theorem writeMore_inj {as bs : List Block} (has : ∀ a ∈ as, a.Unambiguous)
    (h : writeMore as (']' :: r) = writeMore bs (']' :: s)) : as = bs ∧ r = s := by
  induction as generalizing bs with
  | nil =>
    cases bs with
    | nil => simpa [writeMore] using h
    | cons b bs => simp [writeMore, separator] at h
  | cons a as ih =>
    cases bs with
    | nil => simp [writeMore, separator] at h
    | cons b bs =>
      obtain ⟨rfl, hmore⟩ := has a List.mem_cons_self _ _ _ (ends_writeMore as r)
        (ends_writeMore bs s) (List.append_cancel_left h)
      obtain ⟨rfl, rfl⟩ := ih (fun c hc => has c (List.mem_cons_of_mem _ hc)) hmore
      exact ⟨rfl, rfl⟩

theorem writeAll_inj {as bs : List Block} (has : ∀ a ∈ as, a.Unambiguous)
    (h : writeAll as (']' :: r) = writeAll bs (']' :: s)) : as = bs ∧ r = s := by
  cases as with
  | nil =>
    cases bs with
    | nil => simpa [writeAll] using h
    | cons b bs =>
      rw [writeAll_cons] at h
      exact absurd h.symm (write_ne_bracket b _ _)
  | cons a as =>
    cases bs with
    | nil =>
      rw [writeAll_cons] at h
      exact absurd h (write_ne_bracket a _ _)
    | cons b bs =>
      rw [writeAll_cons, writeAll_cons] at h
      exact writeMore_inj has (congrArg (separator ++ ·) h)

theorem unambiguous (a : Block) : a.Unambiguous := by
  induction a using induct with
  | basic i =>
    intro b r s hr hs h
    cases b with
    | basic j =>
      obtain ⟨rfl, rfl⟩ := text_append_inj hr hs h
      exact ⟨rfl, rfl⟩
    | loop n body =>
      have hhead := congrArg List.head? h
      rw [head?_write, head?_write, Option.some_inj] at hhead
      exact absurd hhead (initial_basic_ne_loop i n body)
  | loop n body ih =>
    intro b r s _ _ h
    cases b with
    | basic j =>
      have hhead := congrArg List.head? h
      rw [head?_write, head?_write, Option.some_inj] at hhead
      exact absurd hhead.symm (initial_basic_ne_loop j n body)
    | loop m body' =>
      obtain ⟨rfl, hbody⟩ := opening_append_inj h
      obtain ⟨rfl, rfl⟩ := writeAll_inj ih hbody
      exact ⟨rfl, rfl⟩

/-! ## What a text looks like -/

theorem write_eq (b : Block) (r : List Char) : b.write r = b.text.toList ++ r := by
  rw [text, String.toList_ofList, ← write_append, List.nil_append]

theorem writeAll_eq (bs : List Block) (r : List Char) :
    writeAll bs r = (", ".intercalate (bs.map text)).toList ++ r := by
  rw [String.toList_intercalate]
  induction bs with
  | nil => simp [writeAll]
  | cons b bs ih =>
    cases bs with
    | nil => simp [writeAll, write_eq]
    | cons c bs => simp [writeAll, ih, write_eq, separator]

theorem text_basic (i : Instruction) : (basic i).text = i.name.toLower := by
  cases i <;> decide +kernel

theorem text_loop (n : Fin 11) (body : List Block) :
    (loop n body).text =
      "repeat " ++ toString n.val ++ " [" ++ ", ".intercalate (body.map text) ++ "]" := by
  have hopening : opening n = ("repeat " ++ toString n.val ++ " [").toList := rfl
  apply String.toList_injective
  rw [text, String.toList_ofList, write, writeAll_eq, hopening]
  simp only [String.toList_append, List.append_assoc]
  rfl

/-- The text of an instruction is its name in lower case, and that of a loop has its count and then,
in brackets, the texts of its blocks with a comma and a blank between any two. Whatever the blocks
are that have the same text, at whatever depth they nest, they are the same. -/
theorem text_unambiguous :
    (∀ i, (basic i).text = i.name.toLower) ∧
    (∀ n body, (loop n body).text =
      "repeat " ++ toString n.val ++ " [" ++ ", ".intercalate (body.map text) ++ "]") ∧
    ∀ a b : Block, a.text = b.text → a = b := by
  refine ⟨text_basic, text_loop, ?_⟩
  intro a b h
  have hwrite : a.write [] = b.write [] := String.ofList_injective h
  exact (a.unambiguous b [] [] (by simp [Ends]) (by simp [Ends]) hwrite).1

end Block

end GridRobot
