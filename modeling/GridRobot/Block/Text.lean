import GridRobot.Block.Basic

/-!
# The text of a block

An instruction is its lower-case name. A loop is written `repeat 3 [move, repeat 2 []]`: its count,
then its body in brackets, separated by commas. The writers put a text in front of what follows it,
so a text of any depth is written in one pass.
-/

namespace GridRobot

namespace Block

/-- What a loop's text has in front of its blocks. -/
def opening (n : Fin 11) : List Char := s!"repeat {n.val} [".toList

def separator : List Char := [',', ' ']

mutual

/-- The text of a block, followed by `rest`. -/
def write : Block → List Char → List Char
  | basic i, rest => i.text.toList ++ rest
  | loop n body, rest => opening n ++ writeAll body (']' :: rest)

/-- The texts of blocks, separated by commas and followed by `rest`. -/
def writeAll : List Block → List Char → List Char
  | [], rest => rest
  | [b], rest => write b rest
  | b :: c :: bs, rest => write b (separator ++ writeAll (c :: bs) rest)

end

def text (b : Block) : String := String.ofList (b.write [])

/-- What follows a text is no part of it. -/
theorem write_append (b : Block) (r s : List Char) : b.write (r ++ s) = b.write r ++ s := by
  induction b using induct generalizing r s with
  | basic i => simp only [write, List.append_assoc]
  | loop n body ih =>
    have all : ∀ bs, (∀ b ∈ bs, ∀ r s : List Char, b.write (r ++ s) = b.write r ++ s) →
        ∀ r s, writeAll bs (r ++ s) = writeAll bs r ++ s := by
      intro bs h
      induction bs with
      | nil => intro r s; rfl
      | cons b bs ihb =>
        intro r s
        have hb := h b List.mem_cons_self
        have hs := ihb fun c hc => h c (List.mem_cons_of_mem _ hc)
        cases bs with
        | nil => simpa only [writeAll] using hb r s
        | cons c cs => simp only [writeAll, hs, ← hb, List.append_assoc]
    simp only [write, ← List.cons_append, all body ih, List.append_assoc]

end Block

end GridRobot
