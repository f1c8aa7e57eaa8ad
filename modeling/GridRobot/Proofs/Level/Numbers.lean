import Mathlib.Data.Nat.Digits.Defs
import GridRobot.Campaign.Levels
import GridRobot.Level.Source
import GridRobot.Proofs.Json.Grammar
import GridRobot.Proofs.Validation.Places
import GridRobot.Proofs.Validation.Valid

/-!
# The numbers of a level that is read

An integer is read from a limited number of digits, or from a number of 64 bits. So no integer that
a source spells is too long to be written, and the same is true of the coordinates on the board of a
level that is read.
-/

namespace GridRobot

namespace Text

theorem ofDigits_eq (digits : List Nat) : ofDigits digits = Nat.ofDigits 10 digits.reverse := by
  rw [Nat.ofDigits_eq_foldr, List.foldr_reverse, ofDigits]
  simp [Nat.add_comm]

theorem ofDigits_lt {digits : List Nat} (h : ∀ d ∈ digits, d < 10)
    (hlimit : digits.length ≤ digitLimit) : ofDigits digits < 10 ^ digitLimit := by
  have hlt : Nat.ofDigits 10 digits.reverse < 10 ^ digits.reverse.length :=
    Nat.ofDigits_lt_base_pow_length (by decide) fun d hd => h d (List.mem_reverse.mp hd)
  rw [List.length_reverse] at hlt
  rw [ofDigits_eq]
  exact Nat.lt_of_lt_of_le hlt (Nat.pow_le_pow_right (by decide) hlimit)

theorem asciiDigit?_lt {c : Char} {d : Nat} (h : asciiDigit? c = some d) : d < 10 := by
  unfold asciiDigit? at h
  split at h
  · rename_i hdigit
    cases h
    simp only [Char.isDigit, Bool.and_eq_true, decide_eq_true_eq] at hdigit
    have hle : c.toNat ≤ 57 := UInt32.le_iff_toNat_le.mp hdigit.2
    have hzero : '0'.toNat = 48 := rfl
    omega
  · cases h

/-- All digits of a numeral are read from its characters. -/
theorem forall_mem_grouped? {digit? : Char → Option Nat} {P : Nat → Prop}
    (hdigit : ∀ c d, digit? c = some d → P d) {cs : List Char} {digits : List Nat}
    (h : grouped? digit? cs = some digits) : ∀ d ∈ digits, P d := by
  have hcons {c : Char} {cs : List Char} {digits : List Nat}
      (hrest : ∀ ds, grouped? digit? cs = some ds → ∀ d ∈ ds, P d)
      (h : (do return (← digit? c) :: (← grouped? digit? cs)) = some digits) :
      ∀ d ∈ digits, P d := by
    simp only [Option.bind_eq_bind, Option.bind_eq_some_iff, Option.pure_def,
      Option.some.injEq] at h
    obtain ⟨d, hd, ds, hds, rfl⟩ := h
    exact List.forall_mem_cons.mpr ⟨hdigit c d hd, hrest ds hds⟩
  fun_induction grouped? digit? cs generalizing digits with
  | case1 => cases h
  | case2 c =>
    obtain ⟨d, hd, rfl⟩ := Option.map_eq_some_iff.mp h
    simpa using hdigit c d hd
  | case3 c cs ih => exact hcons (fun ds => ih) h
  | case4 c cs _ _ ih => exact hcons (fun ds => ih) h

theorem writable_iff {n : Int} : Writable n ↔ n.natAbs < 10 ^ digitLimit := by
  rw [Writable, Nat.pow_eq]

theorem writable_sign (negative : Bool) {n : Nat} (h : n < 10 ^ digitLimit) :
    Writable (Double.sign negative n) := by
  have habs : (Double.sign negative n).natAbs = n := by cases negative <;> simp [Double.sign]
  rw [writable_iff, habs]
  exact h

/-- What fits 64 bits can be written. -/
theorem writable_of_lt {n : Int} (h : n.natAbs < Nat.pow 2 63) : Writable n := by
  have hle : Nat.pow 2 63 ≤ Nat.pow 10 digitLimit := by decide +kernel
  exact Nat.lt_of_lt_of_le h hle

end Text

namespace Json

/-- No integer in a value is too long to be written. -/
inductive Writable : Json → Prop
  | null : Writable .null
  | bool (b : Bool) : Writable (.bool b)
  | integer {n : Int} (short : Text.Writable n) : Writable (.integer n)
  | number (d : Double) : Writable (.number d)
  | string (s : String) : Writable (.string s)
  | array {vs : List Json} (items : ∀ v ∈ vs, Writable v) : Writable (.array vs)
  | object {ms : List (String × Json)} (members : ∀ m ∈ ms, Writable m.2) : Writable (.object ms)

theorem word?_writable (w : List Char) (v : Json) (h : word? w = some v) : v.Writable := by
  rcases word?_cases h with rfl | ⟨b, rfl⟩ | ⟨d, rfl⟩ | ⟨negative, ds, hds, rfl⟩
  · exact .null
  · exact .bool b
  · exact .number d
  · refine .integer (Text.writable_sign negative (Text.ofDigits_lt ?_ ?_))
    · intro d hd
      obtain ⟨c, -, hc⟩ := List.mem_filterMap.mp hd
      exact Text.asciiDigit?_lt hc
    · exact Nat.le_trans (List.length_filterMap_le _ _) hds

theorem forall_mem_gather {P : Json → Prop} {ms : List (String × Json)} (h : ∀ m ∈ ms, P m.2) :
    ∀ m ∈ gather ms, P m.2 := by
  induction ms using List.reverseRecOn with
  | nil => exact h
  | append_singleton ms m ih =>
    obtain ⟨k, v⟩ := m
    rw [List.forall_mem_append] at h
    rw [gather_concat]
    exact forall_mem_insert (h.2 _ (List.mem_singleton_self _)) (ih h.1)

variable {limit : Nat}

mutual

/-- What tokens spell has no integers but theirs. -/
theorem Spells.writable {d : Nat} {ts : List Token} {v : Json} (h : Spells limit d ts v)
    (ht : ∀ t ∈ ts, t.Holds Json.Writable) : v.Writable := by
  cases h with
  | scalar v => exact ht _ (List.mem_singleton_self _)
  | emptyArray => exact .array nofun
  | emptyObject => exact .object nofun
  | @array _ ts us vs v room front last =>
    simp only [List.forall_mem_cons, List.forall_mem_append] at ht
    have hfront := front.writable ht.2.1.1
    have hlast := last.writable ht.2.1.2
    exact .array (List.forall_mem_append.mpr ⟨hfront, List.forall_mem_singleton.mpr hlast⟩)
  | @object _ ts us ms k v room front last =>
    simp only [List.forall_mem_cons, List.forall_mem_append] at ht
    have hfront := front.writable ht.2.1.1
    have hlast := last.writable ht.2.1.2.2.2
    refine .object (forall_mem_gather ?_)
    exact List.forall_mem_append.mpr ⟨hfront, List.forall_mem_singleton.mpr hlast⟩
termination_by ts.length

theorem SpellsItems.writable {d : Nat} {ts : List Token} {vs : List Json}
    (h : SpellsItems limit d ts vs) (ht : ∀ t ∈ ts, t.Holds Json.Writable) :
    ∀ v ∈ vs, v.Writable := by
  cases h with
  | none => exact nofun
  | @more _ ts us vs v front last =>
    simp only [List.forall_mem_append] at ht
    have hfront := front.writable ht.1.1
    have hlast := last.writable ht.1.2
    exact List.forall_mem_append.mpr ⟨hfront, List.forall_mem_singleton.mpr hlast⟩
termination_by ts.length

theorem SpellsMembers.writable {d : Nat} {ts : List Token} {ms : List (String × Json)}
    (h : SpellsMembers limit d ts ms) (ht : ∀ t ∈ ts, t.Holds Json.Writable) :
    ∀ m ∈ ms, m.2.Writable := by
  cases h with
  | none => exact nofun
  | @more _ ts us ms k v front last =>
    simp only [List.forall_mem_cons, List.forall_mem_append] at ht
    have hfront := front.writable ht.1.1
    have hlast := last.writable ht.1.2.2.2
    exact List.forall_mem_append.mpr ⟨hfront, List.forall_mem_singleton.mpr hlast⟩
termination_by ts.length

end

theorem parse?_writable {text : String} {v : Json} (h : parse? limit text = some v) :
    v.Writable := by
  obtain ⟨ts, hts, hspells⟩ := parse?_eq_some_iff.mp h
  exact hspells.writable (tokens?_holds word?_writable .string hts)

/-! ## Integers in other spellings -/

theorem numeral?_writable {negative : Bool} {cs : List Char} {n : Int}
    (h : numeral? negative cs = some n) : Text.Writable n := by
  simp only [numeral?, Option.bind_eq_bind, Option.bind_eq_some_iff] at h
  obtain ⟨digits, hdigits, h⟩ := h
  split at h
  · cases h
  · rename_i hlimit
    cases h
    refine Text.writable_sign negative (Text.ofDigits_lt ?_ ?_)
    · exact Text.forall_mem_grouped? (fun _ _ => Text.asciiDigit?_lt) hdigits
    · simp only [Bool.or_eq_true, decide_eq_true_eq, not_or, Nat.not_lt] at hlimit
      exact hlimit.2

/-- Where zeros stand in front, what is read is zero or behind them. -/
theorem whole?_writable {negative : Bool} {cs : List Char} {n : Int}
    (h : whole? negative cs = some n) : Text.Writable n := by
  unfold whole? at h
  split at h
  · split at h
    · split at h
      · cases h
      · cases h
        exact Text.writable_of_lt (by decide)
    · split at h
      · cases h
      · exact numeral?_writable h
    · exact numeral?_writable h
  · exact numeral?_writable h

theorem integerOfText?_writable {text : String} {n : Int} (h : integerOfText? text = some n) :
    Text.Writable n := by
  simp only [integerOfText?] at h
  split at h
  · exact whole?_writable h
  · cases h

theorem integerOfDouble_writable {d : Double} {n : Int} (h : integerOfDouble d = .ok n) :
    Text.Writable n := by
  unfold integerOfDouble at h
  split at h
  · split at h
    · cases h
    · split at h
      · rename_i hlt
        cases h
        exact Text.writable_of_lt hlt
      · cases h
  · cases h

theorem toInt_writable {v : Json} {n : Int} (hv : v.Writable) (h : v.toInt = .ok n) :
    Text.Writable n := by
  cases hv with
  | integer short =>
    cases h
    exact short
  | bool b => cases b <;> cases h <;> exact Text.writable_of_lt (by decide)
  | number d => exact integerOfDouble_writable h
  | string s =>
    rw [toInt] at h
    split at h
    · cases h
    · split at h
      · rename_i m hm
        cases h
        exact integerOfText?_writable hm
      · cases h
  | _ => cases h

end Json

namespace Level

/-- The size of a level is that of its board. -/
theorem checkSize_of_ofJson {members : List (String × Json)} {l : Level}
    (h : ofJson (.object members) = .valid l) :
    ∃ v, Json.member? "grid_size" members = some v ∧
      checkSize v = .valid ⟨l.size, l.size_pos⟩ := by
  simp only [ofJson, Json.checkRecord, Checked.seq_eq, Checked.apply_eq_valid_iff,
    Checked.map_eq_valid_iff] at h
  obtain ⟨_, _, ⟨_, _, ⟨_, _, ⟨_, _, ⟨_, _, ⟨_, _, ⟨_, _, ⟨_, size, ⟨_, _, ⟨_, _, ⟨_, -, rfl⟩, -, rfl⟩,
    -, rfl⟩, hsize, rfl⟩, -, rfl⟩, -, rfl⟩, -, rfl⟩, -, rfl⟩, -, rfl⟩, -, rfl⟩, -, rfl⟩ := h
  exact Json.required_eq_valid_iff.mp hsize

theorem toInt_of_checkSize {v : Json} {size : { n : Nat // 0 < n }}
    (h : checkSize v = .valid size) : v.toInt = .ok (size.val : Int) := by
  unfold checkSize at h
  split at h
  · cases h
  · rename_i n hn
    split at h
    · rename_i hpos
      cases h
      rw [hn, Int.toNat_of_nonneg (Int.le_of_lt hpos)]
    · cases h

/-- No coordinate on the board of a level that is read from a text is too long to be written. -/
theorem parse_writable {source : String} {l : Level} (h : parse source = .ok l) : l.Writable := by
  rw [parse, Json.accept] at h
  split at h
  · rename_i v hv
    have hl : ofJson v = .valid l := Checked.accept_eq_ok_iff.mp h
    obtain ⟨members, rfl⟩ : ∃ members, v = .object members := by
      cases v <;> first | exact ⟨_, rfl⟩ | cases hl
    have hmembers : ∀ m ∈ members, m.2.Writable := by
      cases Json.parse?_writable hv with
      | object members => exact members
    obtain ⟨w, hw, hsize⟩ := checkSize_of_ofJson hl
    have hwritable : Text.Writable (l.size : Int) :=
      Json.toInt_writable (hmembers _ (Json.mem_of_member? hw)) (toInt_of_checkSize hsize)
    exact Nat.le_of_lt hwritable
  · cases h

end Level

theorem Campaign.level_writable {id : Int} {l : Level} (h : Campaign.level id = .ok l) :
    l.Writable := by
  have hbuiltin : ∀ l ∈ Campaign.builtin, l.Writable := by decide +kernel
  rw [Campaign.level] at h
  split at h
  · rename_i l' hfound
    cases h
    exact hbuiltin _ (List.mem_of_find?_eq_some hfound)
  · cases h

end GridRobot
