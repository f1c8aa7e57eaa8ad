import Mathlib.Data.List.TakeWhile
import GridRobot.Json.Printer
import GridRobot.Json.Token

/-!
# Scanning written text

What the reader of characters makes of the parts of a written text: marks, blanks, words and
strings. Each lemma moves the scan over one part, with what follows the part left free. A word ends
at the next mark, quote or blank, so what follows a word has to begin with one of these.
-/

namespace GridRobot.Json

/-- The tokens of a text that ends here. -/
def Mode.finish? : Mode × List Token → Option (List Token)
  | (.between, tokens) => some tokens.reverse
  | (.word read, tokens) => (word? read.reverse).map fun v => (.scalar v :: tokens).reverse
  | _ => none

/-- The tokens of a text of which a part has been read. -/
def scan (s : Mode × List Token) (cs : List Char) : Option (List Token) :=
  (cs.foldlM Mode.step s).bind Mode.finish?

theorem tokens?_eq_scan (cs : List Char) : tokens? cs = scan (.between, []) cs := by
  unfold tokens? scan
  refine congrArg _ (funext fun s => ?_)
  obtain ⟨mode, tokens⟩ := s
  cases mode with
  | word read => cases h : word? read.reverse <;> simp [Mode.finish?, h]
  | _ => rfl

theorem scan_cons (s : Mode × List Token) (c : Char) (cs : List Char) :
    scan s (c :: cs) = (Mode.step s c).bind (scan · cs) := by
  simp only [scan, List.foldlM_cons, Option.bind_eq_bind, Option.bind_assoc]

theorem scan_cons_of_step {s s' : Mode × List Token} {c : Char} (h : Mode.step s c = some s')
    (cs : List Char) : scan s (c :: cs) = scan s' cs := by
  rw [scan_cons, h, Option.bind_some]

variable {ts : List Token} {read cs : List Char}

/-! ## Marks and blanks -/

theorem scan_mark {c : Char} {t : Token} (h : Token.mark? c = some t) :
    scan (.between, ts) (c :: cs) = scan (.between, t :: ts) cs := by
  unfold Token.mark? at h
  split at h <;> first | cases h; rfl | cases h

theorem scan_blanks (n : Nat) :
    scan (.between, ts) (List.replicate n ' ' ++ cs) = scan (.between, ts) cs := by
  induction n with
  | zero => rfl
  | succ n ih => rw [List.replicate_succ, List.cons_append, ← ih]; rfl

theorem scan_newline (indent : Nat) :
    scan (.between, ts) (newline indent cs) = scan (.between, ts) cs := by
  have hstep : Mode.step (.between, ts) '\n' = some (.between, ts) := rfl
  rw [newline, List.cons_append, scan_cons_of_step hstep, scan_blanks]

/-! ## Words -/

/-- A text whose beginning ends a word in front of it. -/
def EndsWord (cs : List Char) : Prop := ∀ c ∈ cs.head?, Mode.endsWord c = true

theorem endsWord_newline (indent : Nat) (cs : List Char) : EndsWord (newline indent cs) := by
  intro c h
  cases h
  rfl

theorem scan_word_end (h : EndsWord cs) :
    scan (.word read, ts) cs =
      (word? read.reverse).bind fun v => scan (.between, .scalar v :: ts) cs := by
  cases cs with
  | nil => cases hw : word? read.reverse <;> simp [scan, Mode.finish?, hw]
  | cons c cs =>
    have hc : Mode.endsWord c = true := h c rfl
    rw [scan_cons]
    simp only [Mode.step, hc, ↓reduceIte, Option.bind_map]
    rfl

theorem scan_word_append {w : List Char} (hw : w.any Mode.endsWord = false)
    (h : EndsWord cs) : scan (.word read, ts) (w ++ cs) =
      (word? (read.reverse ++ w)).bind fun v => scan (.between, .scalar v :: ts) cs := by
  induction w generalizing read with
  | nil => rw [List.nil_append, List.append_nil]; exact scan_word_end h
  | cons c w ih =>
    rw [List.any_cons, Bool.or_eq_false_iff] at hw
    have hstep : Mode.step (.word read, ts) c = some (.word (c :: read), ts) := by
      simp [Mode.step, hw.1]
    rw [List.cons_append, scan_cons_of_step hstep, ih hw.2, List.reverse_cons,
      List.append_assoc, List.singleton_append]

/-- A word is read as a whole. -/
theorem scan_word {w : List Char} {v : Json} (hv : word? w = some v)
    (hw : w.any Mode.endsWord = false) (h : EndsWord cs) :
    scan (.between, ts) (w ++ cs) = scan (.between, .scalar v :: ts) cs := by
  cases w with
  | nil => cases hv
  | cons c w =>
    rw [List.any_cons, Bool.or_eq_false_iff] at hw
    obtain ⟨⟨hq, hb⟩, hm⟩ : (c ≠ '"' ∧ isBlank c = false) ∧ Token.mark? c = none := by
      simpa [Mode.endsWord] using hw.1
    have hstep : Mode.step (.between, ts) c = some (.word [c], ts) := by
      simp [Mode.step, Mode.start, hq, hb, hm]
    rw [List.cons_append, scan_cons_of_step hstep, scan_word_append hw.2 h]
    simp [hv]

/-! ## Strings -/

theorem hexDigit?_digitChar {d : Nat} (h : d < 16) : Text.hexDigit? d.digitChar = some d := by
  have all : ∀ d : Fin 16, Text.hexDigit? (Nat.digitChar d) = some d.val := by decide
  exact all ⟨d, h⟩

/-- The last digit stands behind the digits of the sixteenth, padded to one place less. -/
theorem hex_succ {width : Nat} (h : 0 < width) (n : Nat) :
    Text.hex (width + 1) n = Text.hex width (n / 16) ++ [(n % 16).digitChar] := by
  by_cases hn : n < 16
  · have hzero : n / 16 = 0 := by omega
    have hpad : List.replicate width '0' = List.replicate (width - 1) '0' ++ ['0'] := by
      rw [← List.replicate_succ', Nat.sub_add_cancel h]
    rw [Text.hex, Text.hex, hzero, Nat.toDigits_of_lt_base hn, Nat.toDigits_zero,
      List.length_singleton, List.length_singleton, Nat.add_sub_cancel, Nat.mod_eq_of_lt hn, hpad]
  · rw [Text.hex, Text.hex, Nat.toDigits_of_base_le (by decide) (by omega), List.length_append,
      List.length_singleton, Nat.add_sub_add_right, List.append_assoc]

/-- A code unit has four digits, zeros in front included. -/
theorem hex_four {n : Nat} (h : n < 65536) : Text.hex 4 n =
    [(n / 4096).digitChar, (n / 256 % 16).digitChar, (n / 16 % 16).digitChar,
      (n % 16).digitChar] := by
  have hfirst : Text.hex 1 (n / 16 / 16 / 16) = [(n / 16 / 16 / 16).digitChar] := by
    rw [Text.hex, Nat.toDigits_of_lt_base (by omega)]
    rfl
  rw [hex_succ (by decide), hex_succ (by decide), hex_succ (by decide), hfirst]
  simp [Nat.div_div_eq_div_mul]

theorem scan_code_digit {half : Option Nat} {digits value d : Nat} (hd : d < 16)
    (h : digits < 3) : scan (.code read half digits value, ts) (d.digitChar :: cs) =
      scan (.code read half (digits + 1) (16 * value + d), ts) cs := by
  refine scan_cons_of_step ?_ cs
  simp [Mode.step, hexDigit?_digitChar hd, h]

/-- The digits of a code unit are read as one number. -/
theorem scan_hex {half : Option Nat} {n : Nat} (h : n < 65536) :
    scan (.code read half 0 0, ts) (Text.hex 4 n ++ cs) =
      (Mode.ofCode? read half n).bind fun m => scan (m, ts) cs := by
  have hn : 16 * (16 * (16 * (16 * 0 + n / 4096) + n / 256 % 16) + n / 16 % 16) + n % 16 = n := by
    omega
  rw [hex_four h, List.cons_append, List.cons_append, List.cons_append, List.cons_append,
    List.nil_append, scan_code_digit (by omega) (by decide),
    scan_code_digit (by omega) (by decide), scan_code_digit (by omega) (by decide), scan_cons]
  simp only [Mode.step, hexDigit?_digitChar (show n % 16 < 16 by omega), Option.bind_eq_bind,
    Option.bind_some, hn]
  cases Mode.ofCode? read half n <;> rfl

theorem scan_unit {n : Nat} (h : n < 65536) :
    scan (.quoted read, ts) (writeUnit n ++ cs) =
      (Mode.ofCode? read none n).bind fun m => scan (m, ts) cs := by
  rw [← scan_hex h]
  rfl

theorem scan_second_unit {first n : Nat} (h : n < 65536) :
    scan (.half read first, ts) (writeUnit n ++ cs) =
      (Mode.ofCode? read (some first) n).bind fun m => scan (m, ts) cs := by
  rw [← scan_hex h]
  rfl

/-- No character is half of a pair. -/
theorem not_surrogate (c : Char) : c.toNat < 0xD800 ∨ 0xE000 ≤ c.toNat ∧ c.toNat < 0x110000 := by
  have h : c.toNat.isValidChar := c.valid
  unfold Nat.isValidChar at h
  omega

theorem scan_char_unit {c : Char} (h : c.toNat < 65536) :
    scan (.quoted read, ts) (writeUnit c.toNat ++ cs) = scan (.quoted (c :: read), ts) cs := by
  have hcode : Mode.ofCode? read none c.toNat = some (.quoted (c :: read)) := by
    have hs := not_surrogate c
    rw [Mode.ofCode?, if_neg (by omega), if_neg (by omega), Char.ofNat_toNat]
  rw [scan_unit h, hcode, Option.bind_some]

theorem scan_char_pair {c : Char} (h : 65536 ≤ c.toNat) :
    scan (.quoted read, ts) (writeUnit (0xD800 + (c.toNat - 0x10000) / 0x400) ++
      (writeUnit (0xDC00 + (c.toNat - 0x10000) % 0x400) ++ cs)) =
      scan (.quoted (c :: read), ts) cs := by
  have hs := not_surrogate c
  generalize hn : c.toNat - 0x10000 = n
  have hfirst : Mode.ofCode? read none (0xD800 + n / 0x400) =
      some (.half read (0xD800 + n / 0x400)) := by
    rw [Mode.ofCode?, if_pos (by omega)]
  have hsecond : Mode.ofCode? read (some (0xD800 + n / 0x400)) (0xDC00 + n % 0x400) =
      some (.quoted (c :: read)) := by
    have hc : 0x10000 + (0xD800 + n / 0x400 - 0xD800) * 0x400 + (0xDC00 + n % 0x400 - 0xDC00) =
        c.toNat := by omega
    rw [Mode.ofCode?, if_pos (by omega), hc, Char.ofNat_toNat]
  rw [scan_unit (by omega), hfirst, Option.bind_some, scan_second_unit (by omega), hsecond,
    Option.bind_some]

/-- Every character is read back from its written form. -/
theorem scan_writeChar (c : Char) :
    scan (.quoted read, ts) (writeChar c ++ cs) = scan (.quoted (c :: read), ts) cs := by
  unfold writeChar
  split
  -- The characters with an escape of their own.
  iterate 7 rfl
  rename_i hquote hslash _ _ _ _ _
  split
  · rename_i hcontrol
    exact scan_char_unit (Nat.lt_trans hcontrol (by decide))
  · rename_i hcontrol
    split
    · have hstep : Mode.step (.quoted read, ts) c = some (.quoted (c :: read), ts) := by
        rw [Mode.step, if_neg hquote, if_neg hslash, if_neg hcontrol]
      exact scan_cons_of_step hstep cs
    · split
      · rename_i hsmall
        exact scan_char_unit hsmall
      · rename_i hlarge
        rw [List.append_assoc]
        exact scan_char_pair (by omega)

theorem scan_chars (s : List Char) :
    scan (.quoted read, ts) (s.flatMap writeChar ++ '"' :: cs) =
      scan (.between, .scalar (.string (String.ofList (read.reverse ++ s))) :: ts) cs := by
  induction s generalizing read with
  | nil => rw [List.append_nil]; rfl
  | cons c s ih =>
    rw [List.flatMap_cons, List.append_assoc, scan_writeChar, ih, List.reverse_cons,
      List.append_assoc, List.singleton_append]

theorem scan_writeString (s : String) : scan (.between, ts) (writeString s cs) =
    scan (.between, .scalar (.string s) :: ts) cs := by
  have hstep : Mode.step (.between, ts) '"' = some (.quoted [], ts) := rfl
  rw [writeString, List.cons_append, scan_cons_of_step hstep, scan_chars, List.reverse_nil,
    List.nil_append, String.ofList_toList]

/-! ## Integers -/

theorem foldl_asciiDigits {ds : List Char} (h : ∀ c ∈ ds, c.isDigit = true) (n : Nat) :
    (ds.filterMap Text.asciiDigit?).foldl (fun n d => 10 * n + d) n = Nat.ofDigitChars 10 ds n := by
  induction ds generalizing n with
  | nil => rfl
  | cons c ds ih =>
    rw [List.forall_mem_cons] at h
    have hc : Text.asciiDigit? c = some (c.toNat - '0'.toNat) := by
      simp [Text.asciiDigit?, h.1]
    rw [List.filterMap_cons_some hc, List.foldl_cons, ih h.2, Nat.ofDigitChars_cons]

theorem isDigit_toDigits {n : Nat} : ∀ c ∈ Nat.toDigits 10 n, c.isDigit = true :=
  fun _ hc => Nat.isDigit_of_mem_toDigits (by decide) (by decide) hc

theorem digitsValue_toDigits (n : Nat) : digitsValue (Nat.toDigits 10 n) = n := by
  rw [digitsValue, Text.ofDigits, foldl_asciiDigits isDigit_toDigits,
    Nat.ofDigitChars_toDigits (by decide) (by decide)]

/-- No decimal of two digits or more starts with a zero. -/
theorem head?_toDigits_ne_zero {n : Nat} (h : 0 < n) : (Nat.toDigits 10 n).head? ≠ some '0' := by
  induction n using Nat.strongRecOn with
  | _ n ih =>
    by_cases hn : n < 10
    · have all : ∀ d : Fin 10, 0 < d.val → Nat.digitChar d ≠ '0' := by decide
      simpa [Nat.toDigits_of_lt_base hn] using all ⟨n, hn⟩ h
    · have hhead := ih (n / 10) (by omega) (by omega)
      obtain ⟨c, ds, hds⟩ :=
        List.exists_cons_of_ne_nil (Nat.toDigits_ne_nil (n := n / 10) (b := 10))
      rw [hds] at hhead
      rw [Nat.toDigits_of_base_le (by decide) (by omega), hds]
      exact hhead

theorem unsigned?_toDigits (negative : Bool) {n : Nat}
    (h : (Nat.toDigits 10 n).length ≤ Text.digitLimit) :
    unsigned? negative (Nat.toDigits 10 n) = some (.integer (Double.sign negative n)) := by
  have hwhole : (Nat.toDigits 10 n).takeWhile Char.isDigit = Nat.toDigits 10 n :=
    List.takeWhile_eq_self_iff.mpr isDigit_toDigits
  have hrest : (Nat.toDigits 10 n).dropWhile Char.isDigit = [] :=
    List.dropWhile_eq_nil_iff.mpr isDigit_toDigits
  have hzero : (Nat.toDigits 10 n).head? = some '0' → (Nat.toDigits 10 n).length = 1 := by
    intro hhead
    rcases Nat.eq_zero_or_pos n with rfl | hpos
    · rfl
    · exact absurd hhead (head?_toDigits_ne_zero hpos)
  have hok : ¬(((Nat.toDigits 10 n).isEmpty || ((Nat.toDigits 10 n).head? = some '0' &&
      (Nat.toDigits 10 n).length ≠ 1) ||
        Text.digitLimit < (Nat.toDigits 10 n).length) = true) := by
    simpa [Nat.toDigits_ne_nil, h] using hzero
  simp only [unsigned?, hwhole, hrest, digitsValue_toDigits]
  rw [if_neg hok]

theorem word?_of_digits {c : Char} {ds : List Char} (h : c.isDigit = true) :
    word? (c :: ds) = unsigned? false (c :: ds) := by
  unfold word?
  split
  case h_8 => rfl
  all_goals
    rename_i he
    rw [(List.cons.inj he).1] at h
    exact absurd h (by decide)

theorem word?_of_minus {c : Char} {ds : List Char} (h : c.isDigit = true) :
    word? ('-' :: c :: ds) = unsigned? true (c :: ds) := by
  unfold word?
  split
  case h_6 he =>
    rw [(List.cons.inj (List.cons.inj he).2).1] at h
    exact absurd h (by decide)
  case h_7 he => rw [(List.cons.inj he).2]
  case h_8 hminus => exact (hminus _ rfl).elim
  all_goals
    rename_i he
    exact absurd (List.cons.inj he).1 (by decide)

/-- The characters of an integer: its digits, behind a minus if it is negative. -/
theorem toList_toString_int (n : Int) : (toString n).toList =
    (if n < 0 then ['-'] else []) ++ Nat.toDigits 10 n.natAbs := by
  rw [Int.toString_eq_repr, Int.repr_eq_if]
  split
  · rename_i hn
    have habs : n.toNat = n.natAbs := by omega
    rw [if_neg (by omega), List.nil_append, habs, Nat.repr_eq_ofList_toDigits,
      String.toList_ofList]
  · rename_i hn
    have habs : (-n).toNat = n.natAbs := by omega
    rw [if_pos (by omega), habs, Nat.repr_eq_ofList_toDigits]
    simp only [String.toList_append, String.toList_ofList]
    rfl

theorem word?_integer {n : Int} (h : (Nat.toDigits 10 n.natAbs).length ≤ Text.digitLimit) :
    word? (toString n).toList = some (.integer n) := by
  obtain ⟨c, ds, hds⟩ := List.exists_cons_of_ne_nil (Nat.toDigits_ne_nil (n := n.natAbs) (b := 10))
  have hc : c.isDigit = true := isDigit_toDigits c (by rw [hds]; exact List.mem_cons_self)
  rw [toList_toString_int]
  by_cases hn : n < 0
  · have hsign : Double.sign true n.natAbs = n := by simp only [Double.sign, ↓reduceIte]; omega
    rw [if_pos hn, List.singleton_append, hds, word?_of_minus hc, ← hds, unsigned?_toDigits true h,
      hsign]
  · have hsign : Double.sign false n.natAbs = n := by
      simp only [Double.sign, Bool.false_eq_true, ↓reduceIte]; omega
    rw [if_neg hn, List.nil_append, hds, word?_of_digits hc, ← hds, unsigned?_toDigits false h,
      hsign]

theorem endsWord_of_isDigit {c : Char} (h : c.isDigit = true) : Mode.endsWord c = false := by
  have hne {x : Char} (hx : x.isDigit = false) : c ≠ x := by
    rintro rfl
    rw [h] at hx
    cases hx
  have hmark : Token.mark? c = none := by
    unfold Token.mark?
    split <;> first | rfl | exact absurd h (by decide)
  have hblank : isBlank c = false := by
    simp [isBlank, hne (x := ' ') rfl, hne (x := '\t') rfl, hne (x := '\n') rfl,
      hne (x := '\r') rfl]
  simp [Mode.endsWord, hne (x := '"') rfl, hblank, hmark]

theorem endsWord_of_mem_integer {n : Int} {c : Char} (h : c ∈ (toString n).toList) :
    Mode.endsWord c = false := by
  rw [toList_toString_int, List.mem_append] at h
  rcases h with hsign | hdigit
  · have hc : c = '-' := by
      split at hsign
      · exact List.mem_singleton.mp hsign
      · cases hsign
    rw [hc]
    rfl
  · exact endsWord_of_isDigit (isDigit_toDigits c hdigit)

theorem scan_integer {n : Int} (h : (Nat.toDigits 10 n.natAbs).length ≤ Text.digitLimit)
    (he : EndsWord cs) : scan (.between, ts) ((toString n).toList ++ cs) =
      scan (.between, .scalar (.integer n) :: ts) cs :=
  scan_word (word?_integer h)
    (List.any_eq_false.mpr fun _ hc => by simp [endsWord_of_mem_integer hc]) he

end GridRobot.Json
