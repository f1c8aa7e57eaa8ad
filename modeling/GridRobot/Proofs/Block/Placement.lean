import GridRobot.Level.Source
import GridRobot.Proofs.Block.RoundTrip
import GridRobot.Proofs.Validation.Members
import GridRobot.Proofs.Validation.Places

/-!
# Blocks wherever they stand

A list of blocks can be a program, the body of a loop or the solution of a level. Its check is the
same in all three places, and item by item: what is accepted alone is accepted there as the same
blocks, and what is refused is refused for the same faults, with the path that leads to the list in
front of theirs.
-/

namespace GridRobot

namespace Block

/-- Among blocks without faults an array has the faults of the one item that is left. -/
theorem ofItems_between {before after : List Json} {p q : List Block}
    (hbefore : List.Forall₂ (fun v b => ofJson v = .valid b) before p)
    (hafter : List.Forall₂ (fun v b => ofJson v = .valid b) after q) (n : Nat) (v : Json) :
    ofItems n (before ++ v :: after) =
      (fun b => p ++ b :: q) <$> (ofJson v).under (.item (n + before.length)) := by
  induction hbefore generalizing n with
  | nil =>
    have hq : ofItems (n + 1) after = .valid q := ofItems_eq_valid_iff.mpr hafter
    rw [List.nil_append, ofItems, hq]
    cases ofJson v <;> rfl
  | @cons w b before p hw _ ih =>
    have hplace : n + 1 + before.length = n + (w :: before).length := by
      rw [List.length_cons]
      omega
    rw [List.cons_append, ofItems, hw, ih (n + 1), hplace]
    cases ofJson v <;> rfl

/-- A loop that would be accepted with an empty body has the faults of its body. -/
theorem ofJson_with_body {members : List (String × Json)} {vs : List Json} {n : Fin 11}
    (hbody : Json.member? "body" members = some (.array vs))
    (hrest : ofJson (.object (Json.insert "body" (.array []) members)) = .valid (loop n [])) :
    ofJson (.object members) =
      loop n <$> (ofItems 0 vs).within [.field "REPEAT", .field "body"] := by
  obtain ⟨emptied, hemptied, htype, hkeys, hcount, -⟩ := ofJson_eq_valid_iff.mp hrest
  cases hemptied
  have hne : "type" ≠ "body" ∧ "count" ≠ "body" := by decide
  rw [Json.member?_insert, if_neg hne.1] at htype
  rw [← Json.optional_eq_valid_iff, Json.optional_insert_of_ne hne.2] at hcount
  have hothers : Json.noOthers members ["type", "count", "body"] = .valid () := by
    have hdeclared := (Json.forall_keys_insert hbody (.array [])
      fun k => k = "type" ∨ k = "count" ∨ k = "body").mp hkeys
    simpa [Json.noOthers_eq_valid_iff] using hdeclared
  have hblocks : Json.optional members "body" [] listOfJson =
      (ofItems 0 vs).within [.field "body"] := by
    simp only [Json.optional, hbody, listOfJson, Checked.under_eq_within]
  rw [ofJson_loop htype, hcount, hothers, hblocks, ← Checked.under_within (.field "REPEAT")]
  cases (ofItems 0 vs).within [.field "body"] <;> rfl

/-- The body of a loop in a program is checked as a program of its own. -/
theorem ofItems_with_body {before after : List Json} {p q : List Block}
    {members : List (String × Json)} {vs : List Json} {n : Fin 11}
    (hbefore : List.Forall₂ (fun v b => ofJson v = .valid b) before p)
    (hafter : List.Forall₂ (fun v b => ofJson v = .valid b) after q)
    (hbody : Json.member? "body" members = some (.array vs))
    (hrest : ofJson (.object (Json.insert "body" (.array []) members)) = .valid (loop n [])) :
    ofItems 0 (before ++ .object members :: after) =
      (fun bs => p ++ loop n bs :: q) <$> (ofItems 0 vs).within
        [.item before.length, .field "REPEAT", .field "body"] := by
  rw [ofItems_between hbefore hafter, ofJson_with_body hbody hrest, Nat.zero_add,
    ← Checked.under_within (.item before.length)]
  cases (ofItems 0 vs).within [.field "REPEAT", .field "body"] <;> rfl

end Block

namespace Level

/-- A level that would be accepted with an empty solution has the faults of its solution. -/
theorem ofJson_with_solution {members : List (String × Json)} {vs : List Json} {l : Level}
    (hsolution : Json.member? "solution" members = some (.array vs))
    (hrest : ofJson (.object (Json.insert "solution" (.array []) members)) = .valid l) :
    ofJson (.object members) =
      (fun bs => { l with solution := bs }) <$>
        (Block.ofItems 0 vs).within [.field "solution"] := by
  have hblocks : Json.optional members "solution" [] Block.listOfJson =
      (Block.ofItems 0 vs).within [.field "solution"] := by
    simp only [Json.optional, hsolution, Block.listOfJson, Checked.under_eq_within]
  -- The other fields are checked apart from the solution, so they are valid as they stand.
  simp (disch := decide) only [ofJson, Json.checkRecord, Checked.seq_eq,
    Checked.apply_eq_valid_iff, Checked.map_eq_valid_iff, Json.optional_insert_of_ne,
    Json.required_insert_of_ne] at hrest
  obtain ⟨-, _, ⟨-, _, ⟨-, _, ⟨-, _, ⟨-, _, ⟨-, _, ⟨-, _, ⟨-, _, ⟨-, _, ⟨-, _, ⟨_, hid, rfl⟩,
    hname, rfl⟩, hdescription, rfl⟩, hsize, rfl⟩, hstart, rfl⟩, hheading, rfl⟩, hentities, rfl⟩,
    hoptimal, rfl⟩, hlimit, rfl⟩, hpalette, rfl⟩, -, rfl⟩ := hrest
  simp only [ofJson, Json.checkRecord, hid, hname, hdescription, hsize, hstart, hheading, hentities,
    hoptimal, hlimit, hpalette, hblocks]
  cases (Block.ofItems 0 vs).within [.field "solution"] <;> rfl

end Level

namespace Program

/-! ## Items in arrays of their own -/

section Singles

variable {single : String} {v : Json} {singles : List String} {vs : List Json}

theorem parse_single (h : Json.parse? Json.nestingLimit single = some (.array [v])) :
    parse single = ((fun b => [b]) <$> (Block.ofJson v).under (.item 0)).accept .program := by
  have hitems := Block.ofItems_between .nil .nil 0 v
  rw [List.nil_append, List.length_nil, Nat.add_zero] at hitems
  rw [parse, Json.accept_eq h, ofJson, hitems]
  rfl

theorem parse_single_eq_ok_iff (h : Json.parse? Json.nestingLimit single = some (.array [v]))
    {p : Program} : parse single = .ok p ↔ ∃ b, Block.ofJson v = .valid b ∧ p = [b] := by
  rw [parse_single h, Checked.accept_eq_ok_iff, Checked.map_eq_valid_iff]
  simp only [Checked.under_eq_valid_iff, eq_comm (a := p)]

theorem faultsOf_parse_single (h : Json.parse? Json.nestingLimit single = some (.array [v])) :
    Rejection.faultsOf (parse single) = (Block.ofJson v).faults.map (Fault.under (.item 0)) := by
  rw [parse_single h, Checked.faultsOf_accept, Checked.faults_map, Checked.faults_under]

/-- All items are blocks exactly if each is accepted alone. -/
theorem exists_blocks_iff (h : List.Forall₂ (fun single v =>
    Json.parse? Json.nestingLimit single = some (.array [v])) singles vs) :
    (∃ p, List.Forall₂ (fun v b => Block.ofJson v = .valid b) vs p) ↔
      ∀ single ∈ singles, ∃ p, parse single = .ok p := by
  induction h with
  | nil => simp
  | @cons single v singles vs hread _ ih =>
    rw [List.forall_mem_cons, ← ih]
    simp only [List.forall₂_cons_left_iff, parse_single_eq_ok_iff hread]
    constructor
    · rintro ⟨_, b, p, hb, hp, rfl⟩
      exact ⟨⟨[b], b, hb, rfl⟩, p, hp⟩
    · rintro ⟨⟨_, b, hb, rfl⟩, p, hp⟩
      exact ⟨b :: p, b, p, hb, hp, rfl⟩

/-- The blocks of all items, from those that each gives alone. -/
theorem blocks_flatten (h : List.Forall₂ (fun single v =>
    Json.parse? Json.nestingLimit single = some (.array [v])) singles vs) {ps : List Program}
    (hps : List.Forall₂ (fun single p => parse single = .ok p) singles ps) :
    List.Forall₂ (fun v b => Block.ofJson v = .valid b) vs ps.flatten := by
  induction h generalizing ps with
  | nil => cases hps; exact .nil
  | cons hread _ ih =>
    cases hps with
    | cons hp hps =>
      obtain ⟨b, hb, rfl⟩ := (parse_single_eq_ok_iff hread).mp hp
      exact .cons hb (ih hps)

/-- The faults of all items, from those that each has alone. -/
theorem faults_flatMap (h : List.Forall₂ (fun single v =>
    Json.parse? Json.nestingLimit single = some (.array [v])) singles vs) (n : Nat) :
    (Block.ofItems n vs).faults = (singles.zipIdx n).flatMap fun single =>
      (Rejection.faultsOf (parse single.1)).map (Fault.reindex single.2) := by
  induction h generalizing n with
  | nil => rw [Block.ofItems]; rfl
  | @cons single v singles vs hread _ ih =>
    rw [Block.ofItems, List.zipIdx_cons, List.flatMap_cons, ← ih, faultsOf_parse_single hread]
    simp

theorem head?_path_of_mem (h : List.Forall₂ (fun single v =>
    Json.parse? Json.nestingLimit single = some (.array [v])) singles vs) :
    ∀ single ∈ singles, ∀ f ∈ Rejection.faultsOf (parse single),
      f.path.head? = some (.item 0) := by
  induction h with
  | nil => simp
  | cons hread _ ih =>
    refine List.forall_mem_cons.mpr ⟨?_, ih⟩
    rw [faultsOf_parse_single hread, List.forall_mem_map]
    intro f _
    rfl

end Singles

/-- Blocks are checked one by one and wherever they stand. Of an array the program is made of those
of its items, each read from an array of its own, and all faults of the items are found, in their
order, at their own index. As the body of a loop, and as the solution of a level, that have no other
faults, the array has the same verdict, the same blocks and the same faults, at paths that lead
there. -/
theorem parse_placed {vs : List Json} {source : String} {singles : List String}
    (hsource : Json.parse? Json.nestingLimit source = some (.array vs))
    (hsingles : List.Forall₂ (fun single v =>
      Json.parse? Json.nestingLimit single = some (.array [v])) singles vs) :
    ((∃ p, parse source = .ok p) ↔ ∀ single ∈ singles, ∃ p, parse single = .ok p) ∧
    (∀ ps, List.Forall₂ (fun single p => parse single = .ok p) singles ps →
      parse source = .ok ps.flatten) ∧
    (∀ r, parse source = .error r → r = ⟨.program, .faults (singles.zipIdx.flatMap fun single =>
      (Rejection.faultsOf (parse single.1)).map (Fault.reindex single.2))⟩) ∧
    (∀ single ∈ singles, ∀ f ∈ Rejection.faultsOf (parse single), f.path.head? = some (.item 0)) ∧
    (∀ whole before after members p q n,
      Json.parse? Json.nestingLimit whole = some (.array (before ++ .object members :: after)) →
      List.Forall₂ (fun v b => Block.ofJson v = .valid b) before p →
      List.Forall₂ (fun v b => Block.ofJson v = .valid b) after q →
      Json.member? "body" members = some (.array vs) →
      Block.ofJson (.object (Json.insert "body" (.array []) members)) = .valid (.loop n []) →
      parse whole = ((parse source).map fun bs => p ++ .loop n bs :: q).mapError
        (Rejection.within .program [.item before.length, .field "REPEAT", .field "body"])) ∧
    (∀ whole members l,
      Json.parse? Json.nestingLimit whole = some (.object members) →
      Json.member? "solution" members = some (.array vs) →
      Level.ofJson (.object (Json.insert "solution" (.array []) members)) = .valid l →
      Level.parse whole = ((parse source).map fun bs => { l with solution := bs }).mapError
        (Rejection.within .level [.field "solution"])) := by
  have hparse : parse source = (Block.ofItems 0 vs).accept .program := Json.accept_eq hsource
  have hok (p : Program) : parse source = .ok p ↔
      List.Forall₂ (fun v b => Block.ofJson v = .valid b) vs p := by
    rw [hparse, Checked.accept_eq_ok_iff, Block.ofItems_eq_valid_iff]
  refine ⟨?_, ?_, ?_, head?_path_of_mem hsingles, ?_, ?_⟩
  · rw [← exists_blocks_iff hsingles]
    exact exists_congr hok
  · intro ps hps
    exact (hok _).mpr (blocks_flatten hsingles hps)
  · intro r hr
    rw [hparse] at hr
    rw [← faults_flatMap hsingles 0]
    cases hitems : Block.ofItems 0 vs with
    | valid p => rw [hitems] at hr; cases hr
    | invalid fs => rw [hitems] at hr; cases hr; rfl
  · intro whole before after members p q n hread hbefore hafter hbody hrest
    rw [parse, Json.accept_eq hread, ofJson,
      Block.ofItems_with_body hbefore hafter hbody hrest, Checked.accept_map_within, hparse]
  · intro whole members l hread hsolution hrest
    rw [Level.parse, Json.accept_eq hread, Level.ofJson_with_solution hsolution hrest,
      Checked.accept_map_within, hparse]

/-- Two values that are no blocks, the second only for a field too many. -/
def refused : List Json :=
  [.object [("type", .string "WARP")], .object [("type", .string "MOVE"), ("x", .null)]]

def refusedSource : String :=
  "[\x7b\"type\":\"WARP\"\x7d, \x7b\"type\":\"MOVE\",\"x\":null\x7d]"

def refusedSingles : List String :=
  ["[\x7b\"type\":\"WARP\"\x7d]", "[\x7b\"type\":\"MOVE\",\"x\":null\x7d]"]

/-- The same values as the body of a loop. -/
def refusedLoop : String :=
  "[\x7b\"type\":\"MOVE\"\x7d, \x7b\"body\":" ++
  "[\x7b\"type\":\"WARP\"\x7d, \x7b\"type\":\"MOVE\",\"x\":null\x7d]" ++
  ",\"type\":\"REPEAT\"\x7d]"

theorem parse_placed_refused :
    Json.parse? Json.nestingLimit refusedSource = some (.array refused) ∧
    List.Forall₂ (fun single v =>
      Json.parse? Json.nestingLimit single = some (.array [v])) refusedSingles refused ∧
    (¬∃ p, parse refusedSource = .ok p) ∧
    parse refusedLoop =
      ((parse refusedSource).map fun bs => [.basic .move, .loop Block.defaultCount bs]).mapError
        (Rejection.within .program [.item 1, .field "REPEAT", .field "body"]) := by
  have hsource : Json.parse? Json.nestingLimit refusedSource = some (.array refused) := rfl
  have hsingles : List.Forall₂ (fun single v =>
      Json.parse? Json.nestingLimit single = some (.array [v])) refusedSingles refused :=
    .cons rfl (.cons rfl .nil)
  have hloop : Json.parse? Json.nestingLimit refusedLoop = some (.array
      ([Block.toJson (.basic .move)] ++
        .object [("body", .array refused), ("type", .string "REPEAT")] :: [])) := rfl
  have hrest : Block.ofJson (.object (Json.insert "body" (.array [])
      [("body", .array refused), ("type", .string "REPEAT")])) =
        .valid (.loop Block.defaultCount []) := by
    refine Block.ofJson_eq_valid_iff.mpr ⟨_, rfl, rfl, ?_, .inl ⟨rfl, rfl⟩, .inr ⟨[], rfl, ?_⟩⟩
    · simp [Json.insert]
    · exact Block.ofItems_eq_valid_iff.mpr .nil
  obtain ⟨hverdict, -, -, -, hbody, -⟩ := parse_placed hsource hsingles
  refine ⟨hsource, hsingles, ?_,
    hbody _ _ _ _ _ _ _ hloop (.cons (Block.ofJson_toJson _) .nil) .nil rfl hrest⟩
  have hwarp : parse "[\x7b\"type\":\"WARP\"\x7d]" =
      .error ⟨.program, .faults [⟨[.item 0], .unknownTag "WARP"⟩]⟩ := by decide +kernel
  rw [hverdict]
  intro hall
  obtain ⟨p, hp⟩ := hall _ List.mem_cons_self
  rw [hwarp] at hp
  cases hp

end Program

end GridRobot
