import GridRobot.Proofs.Block.Nesting

/-!
# Writing and reading programs

The source of a program is read back to the program as long as it nests no deeper than a reader
admits, and the reader is the only obstacle: the text spells the program in any case, so no two
programs have one source. A program that was read from some text is never one of those that nest too
deep, however the text spelled it.
-/

namespace GridRobot

namespace Block

theorem legibleItems_toItems {bs : List Block} (h : ∀ b ∈ bs, b.toJson.Legible) :
    Json.LegibleItems (toItems bs) := by
  induction bs with
  | nil => trivial
  | cons b bs ih =>
    rw [List.forall_mem_cons] at h
    exact ⟨h.1, ih h.2⟩

theorem length_toDigits_count (n : Fin 11) :
    (Nat.toDigits 10 (n.val : Int).natAbs).length ≤ Text.digitLimit := by
  revert n
  decide

/-- What is written for a block has no double, no long integer and no key twice. -/
theorem legible_toJson (b : Block) : b.toJson.Legible := by
  induction b using induct with
  | basic i => exact ⟨List.pairwise_singleton _ _, trivial, trivial⟩
  | loop n body ih =>
    have hkeys : ["type", "count", "body"].Nodup := by decide
    exact ⟨hkeys, trivial, length_toDigits_count n, legibleItems_toItems ih, trivial⟩

end Block

namespace Program

theorem legible_toJson (p : Program) : p.toJson.Legible :=
  Block.legibleItems_toItems fun b _ => b.legible_toJson

/-- The brackets of a source nest as deep as the program. -/
theorem deepest_source (p : Program) :
    ∃ ts, Json.tokens? p.source.toList = some ts ∧ Json.deepest 0 ts = p.nesting := by
  refine ⟨p.toJson.tokens, Json.tokens?_text p.legible_toJson, ?_⟩
  have h := Json.deepest_tokens p.toJson 0 []
  rw [List.append_nil, Json.deepest] at h
  rw [h, p.nesting_toJson]
  omega

/-- A source is read back exactly if it nests no deeper than a reader admits. -/
theorem parse_source_eq (p : Program) :
    parse p.source = if p.nesting ≤ 201 then .ok p else .error ⟨.program, .notJson⟩ := by
  rw [parse, Json.accept, source, Json.parse?_text _ p.legible_toJson]
  by_cases h : p.nesting ≤ 201
  · rw [if_pos h, if_pos (p.depth_toJson_le_iff.mpr h)]
    exact congrArg (Checked.accept .program) p.ofJson_toJson
  · rw [if_neg h, if_neg (mt p.depth_toJson_le_iff.mp h)]

theorem parse_eq_ok_iff {s : String} {p : Program} :
    parse s = .ok p ↔ ∃ v, Json.parse? Json.nestingLimit s = some v ∧ ofJson v = .valid p := by
  rw [parse, Json.accept]
  cases Json.parse? Json.nestingLimit s with
  | none => simp
  | some v => cases hv : ofJson v <;> simp [Checked.accept, hv]

/-- What is written for a program is no deeper than any value that is read as it. -/
theorem depth_toJson_le {v : Json} {p : Program} (h : ofJson v = .valid p) :
    p.toJson.depth ≤ v.depth := by
  cases v with
  | array vs =>
    exact Block.depthItems_toItems_le (Block.ofItems_eq_valid_iff.mp h) fun _ _ _ hv =>
      Block.depth_toJson_le hv
  | _ => exact absurd h Checked.fault_ne_valid

theorem nesting_le_of_parse {s : String} {p : Program} (h : parse s = .ok p) :
    p.nesting ≤ 201 := by
  obtain ⟨v, hread, hv⟩ := parse_eq_ok_iff.mp h
  have hlimit : v.depth ≤ Json.nestingLimit := Json.depth_le_of_parse? hread
  exact p.depth_toJson_le_iff.mp (Nat.le_trans (depth_toJson_le hv) hlimit)

/-- Whatever text a program was read from, its source is within what a reader admits, is read as
the same program, and is the source of what is read from it. -/
theorem parse_source_of_parse {s : String} {p : Program} (h : parse s = .ok p) :
    (∃ ts, Json.tokens? p.source.toList = some ts ∧ Json.deepest 0 ts ≤ 201) ∧
      parse p.source = .ok p ∧ (parse p.source).map source = .ok p.source := by
  have hnesting := nesting_le_of_parse h
  have hparse : parse p.source = .ok p := by rw [parse_source_eq, if_pos hnesting]
  obtain ⟨ts, hts, hdeep⟩ := p.deepest_source
  exact ⟨⟨ts, hts, by rw [hdeep]; exact hnesting⟩, hparse, by rw [hparse]; rfl⟩

/-- A text with blanks, a key twice, keys in any order, counts that are no integers, and fields left
out. -/
def looseText : String :=
  " [\x7b\"count\" : \" 3\", \"type\": \"MOVE\",\n\t\"body\": [" ++
  "\x7b\"type\": \"REPEAT\", \"count\": 4.0\x7d, " ++
  "\x7b\"body\":[\x7b\"type\":\"TURN_LEFT\"\x7d],\"count\":true,\"type\":\"REPEAT\"\x7d" ++
  "], \"type\": \"REPEAT\"\x7d, \x7b\"type\": \"REPEAT\"\x7d]\n"

/-- The program that the text spells. -/
def looseProgram : Program :=
  [.loop ⟨3, by decide⟩ [.loop ⟨4, by decide⟩ [], .loop ⟨1, by decide⟩ [.basic .turnLeft]],
    .loop Block.defaultCount []]

theorem parse_source_looseText :
    parse looseText = .ok looseProgram ∧
      (∃ ts, Json.tokens? looseProgram.source.toList = some ts ∧ Json.deepest 0 ts ≤ 201) ∧
      parse looseProgram.source = .ok looseProgram ∧
      (parse looseProgram.source).map source = .ok looseProgram.source :=
  have hread : parse looseText = .ok looseProgram := by decide +kernel
  ⟨hread, parse_source_of_parse hread⟩

end Program

end GridRobot
