import GridRobot.Proofs.Json.Scan

/-!
# The tokens of a written value

The text of a value scans to the tokens of the value: line breaks and indentation leave no trace,
and a character of a string is the same however it is written. Doubles are left out, and so are
integers with more digits than a reader accepts.
-/

namespace GridRobot.Json

mutual

/-- A value that can be written and read: it has no doubles, its integers are not too long, and no
key of an object occurs twice. -/
def Legible : Json → Prop
  | null | bool _ | string _ => True
  | integer n => (Nat.toDigits 10 n.natAbs).length ≤ Text.digitLimit
  | number _ => False
  | array items => LegibleItems items
  | object members => (members.map Prod.fst).Nodup ∧ LegibleMembers members

def LegibleItems : List Json → Prop
  | [] => True
  | v :: vs => Legible v ∧ LegibleItems vs

def LegibleMembers : List (String × Json) → Prop
  | [] => True
  | (_, v) :: ms => Legible v ∧ LegibleMembers ms

end

mutual

/-- The tokens of a value. -/
def tokens : Json → List Token
  | null => [.scalar null]
  | bool b => [.scalar (bool b)]
  | integer n => [.scalar (integer n)]
  | number d => [.scalar (number d)]
  | string s => [.scalar (string s)]
  | array [] => [.openArray, .closeArray]
  | array (v :: vs) => .openArray :: (tokens v ++ (itemTokens vs ++ [.closeArray]))
  | object [] => [.openObject, .closeObject]
  | object ((k, v) :: ms) =>
    .openObject :: .scalar (string k) :: .colon :: (tokens v ++ (memberTokens ms ++ [.closeObject]))

/-- The tokens of the items after the first, each behind a comma. -/
def itemTokens : List Json → List Token
  | [] => []
  | v :: vs => .comma :: (tokens v ++ itemTokens vs)

def memberTokens : List (String × Json) → List Token
  | [] => []
  | (k, v) :: ms => .comma :: .scalar (string k) :: .colon :: (tokens v ++ memberTokens ms)

end

theorem endsWord_cons {c : Char} (h : Mode.endsWord c = true) (cs : List Char) :
    EndsWord (c :: cs) := by
  intro c' hc'
  cases hc'
  exact h

theorem endsWord_writeItems {cs : List Char} (h : EndsWord cs) (indent : Nat) (vs : List Json) :
    EndsWord (writeItems indent vs cs) := by
  cases vs with
  | nil => exact h
  | cons v vs => exact endsWord_cons rfl _

theorem endsWord_writeMembers {cs : List Char} (h : EndsWord cs) (indent : Nat)
    (ms : List (String × Json)) : EndsWord (writeMembers indent ms cs) := by
  cases ms with
  | nil => exact h
  | cons m ms => exact endsWord_cons rfl _

/-- A key and the colon behind it. -/
theorem scan_key (k : String) {ts : List Token} {cs : List Char} :
    scan (.between, ts) (writeString k (':' :: ' ' :: cs)) =
      scan (.between, .colon :: .scalar (.string k) :: ts) cs := by
  rw [scan_writeString, scan_mark (t := .colon) rfl]
  exact scan_blanks 1

mutual

/-- The text of a value, wherever it stands, scans to the tokens of the value. -/
theorem scan_write : ∀ (v : Json), v.Legible → ∀ (indent : Nat) (ts : List Token) (cs : List Char),
    EndsWord cs →
      scan (.between, ts) (v.write indent cs) = scan (.between, v.tokens.reverse ++ ts) cs
  | null, _, _, ts, cs, he => scan_word (w := nullChars) rfl rfl he
  | bool true, _, _, ts, cs, he => scan_word (w := trueChars) rfl rfl he
  | bool false, _, _, ts, cs, he => scan_word (w := falseChars) rfl rfl he
  | integer n, h, _, ts, cs, he => scan_integer h he
  | string s, _, _, ts, cs, he => scan_writeString s
  | array [], _, _, ts, cs, _ => rfl
  | array (v :: vs), h, indent, ts, cs, _ => by
    have hend : EndsWord (newline indent (']' :: cs)) := endsWord_newline _ _
    have hopen : Token.mark? '[' = some .openArray := rfl
    have hclose : Token.mark? ']' = some .closeArray := rfl
    rw [write, scan_mark hopen, scan_newline,
      scan_write v h.1 _ _ _ (endsWord_writeItems hend _ _), scan_writeItems vs h.2 _ _ _ hend,
      scan_newline, scan_mark hclose]
    simp [tokens]
  | object [], _, _, ts, cs, _ => rfl
  | object ((k, v) :: ms), h, indent, ts, cs, _ => by
    have hend : EndsWord (newline indent ('\x7d' :: cs)) := endsWord_newline _ _
    have hopen : Token.mark? '\x7b' = some .openObject := rfl
    have hclose : Token.mark? '\x7d' = some .closeObject := rfl
    rw [write, scan_mark hopen, scan_newline, scan_key,
      scan_write v h.2.1 _ _ _ (endsWord_writeMembers hend _ _),
      scan_writeMembers ms h.2.2 _ _ _ hend, scan_newline, scan_mark hclose]
    simp [tokens]

theorem scan_writeItems : ∀ (vs : List Json), LegibleItems vs →
    ∀ (indent : Nat) (ts : List Token) (cs : List Char), EndsWord cs →
      scan (.between, ts) (writeItems indent vs cs) =
        scan (.between, (itemTokens vs).reverse ++ ts) cs
  | [], _, _, ts, cs, _ => rfl
  | v :: vs, h, indent, ts, cs, he => by
    have hcomma : Token.mark? ',' = some .comma := rfl
    rw [writeItems, scan_mark hcomma, scan_newline,
      scan_write v h.1 _ _ _ (endsWord_writeItems he _ _), scan_writeItems vs h.2 _ _ _ he]
    simp [itemTokens]

theorem scan_writeMembers : ∀ (ms : List (String × Json)), LegibleMembers ms →
    ∀ (indent : Nat) (ts : List Token) (cs : List Char), EndsWord cs →
      scan (.between, ts) (writeMembers indent ms cs) =
        scan (.between, (memberTokens ms).reverse ++ ts) cs
  | [], _, _, ts, cs, _ => rfl
  | (k, v) :: ms, h, indent, ts, cs, he => by
    have hcomma : Token.mark? ',' = some .comma := rfl
    rw [writeMembers, scan_mark hcomma, scan_newline, scan_key,
      scan_write v h.1 _ _ _ (endsWord_writeMembers he _ _), scan_writeMembers ms h.2 _ _ _ he]
    simp [memberTokens]

end

theorem tokens?_text {v : Json} (h : v.Legible) : tokens? v.text.toList = some v.tokens := by
  have hend : EndsWord [] := by intro c hc; cases hc
  rw [text, String.toList_ofList, tokens?_eq_scan, scan_write v h 0 [] [] hend]
  simp [scan, Mode.finish?]

/-! ## How deep brackets nest -/

/-- How many brackets are open behind a token that has `n` open brackets in front of it. -/
def Token.openBehind (n : Nat) : Token → Nat
  | openArray | openObject => n + 1
  | closeArray | closeObject => n - 1
  | _ => n

/-- The most brackets that are open at a time in a text, with `n` open brackets in front of it. -/
def deepest (n : Nat) : List Token → Nat
  | [] => n
  | t :: ts => max n (deepest (t.openBehind n) ts)

mutual

/-- How deep the containers of a value nest, those that hold nothing included. -/
def nesting : Json → Nat
  | array items => 1 + nestingItems items
  | object members => 1 + nestingMembers members
  | _ => 0

def nestingItems : List Json → Nat
  | [] => 0
  | v :: vs => max (nesting v) (nestingItems vs)

def nestingMembers : List (String × Json) → Nat
  | [] => 0
  | (_, v) :: ms => max (nesting v) (nestingMembers ms)

end

theorem le_deepest (n : Nat) (ts : List Token) : n ≤ deepest n ts := by
  cases ts with
  | nil => exact Nat.le_refl n
  | cons t ts => exact Nat.le_max_left _ _

theorem deepest_open {t : Token} {n : Nat} (h : t.openBehind n = n + 1) (ts : List Token) :
    deepest n (t :: ts) = deepest (n + 1) ts := by
  have := le_deepest (n + 1) ts
  rw [deepest, h]
  omega

theorem deepest_flat {t : Token} {n : Nat} (h : t.openBehind n = n) (ts : List Token) :
    deepest n (t :: ts) = deepest n ts := by
  rw [deepest, h, Nat.max_eq_right (le_deepest n ts)]

theorem deepest_key (n : Nat) (k : String) (ts : List Token) :
    deepest n (.scalar (string k) :: .colon :: ts) = deepest n ts := by
  rw [deepest_flat rfl, deepest_flat rfl]

theorem deepest_close {t : Token} {n : Nat} (h : t.openBehind (n + 1) = n) (ts : List Token) :
    deepest (n + 1) (t :: ts) = max (n + 1) (deepest n ts) := by
  rw [deepest, h]

mutual

/-- The brackets of a value nest as deep as its containers, on top of those around it. -/
theorem deepest_tokens : ∀ (v : Json) (n : Nat) (ts : List Token),
    deepest n (v.tokens ++ ts) = max (n + v.nesting) (deepest n ts)
  | null, n, ts | bool _, n, ts | integer _, n, ts | number _, n, ts | string _, n, ts => rfl
  | array [], n, ts => by
    have hopen : Token.openBehind n .openArray = n + 1 := rfl
    rw [tokens, List.cons_append, List.singleton_append, deepest_open hopen,
      deepest_close rfl, nesting, nestingItems]
  | array (v :: vs), n, ts => by
    have hopen : Token.openBehind n .openArray = n + 1 := rfl
    rw [tokens, List.cons_append, deepest_open hopen, List.append_assoc,
      deepest_tokens v, List.append_assoc, deepest_itemTokens vs, List.singleton_append,
      deepest_close rfl, nesting, nestingItems]
    omega
  | object [], n, ts => by
    have hopen : Token.openBehind n .openObject = n + 1 := rfl
    rw [tokens, List.cons_append, List.singleton_append, deepest_open hopen,
      deepest_close rfl, nesting, nestingMembers]
  | object ((k, v) :: ms), n, ts => by
    have hopen : Token.openBehind n .openObject = n + 1 := rfl
    rw [tokens, List.cons_append, deepest_open hopen, List.cons_append, List.cons_append,
      deepest_key, List.append_assoc, deepest_tokens v, List.append_assoc, deepest_memberTokens ms,
      List.singleton_append, deepest_close rfl, nesting, nestingMembers]
    omega

theorem deepest_itemTokens : ∀ (vs : List Json) (n : Nat) (ts : List Token),
    deepest n (itemTokens vs ++ ts) = max (n + nestingItems vs) (deepest n ts)
  | [], n, ts => by
    have := le_deepest n ts
    rw [itemTokens, nestingItems, List.nil_append]
    omega
  | v :: vs, n, ts => by
    rw [itemTokens, List.cons_append, deepest_flat rfl, List.append_assoc,
      deepest_tokens v, deepest_itemTokens vs, nestingItems]
    omega

theorem deepest_memberTokens : ∀ (ms : List (String × Json)) (n : Nat) (ts : List Token),
    deepest n (memberTokens ms ++ ts) = max (n + nestingMembers ms) (deepest n ts)
  | [], n, ts => by
    have := le_deepest n ts
    rw [memberTokens, nestingMembers, List.nil_append]
    omega
  | (k, v) :: ms, n, ts => by
    rw [memberTokens, List.cons_append, deepest_flat rfl, List.cons_append, List.cons_append,
      deepest_key, List.append_assoc, deepest_tokens v, deepest_memberTokens ms, nestingMembers]
    omega

end

end GridRobot.Json
