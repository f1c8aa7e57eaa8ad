import GridRobot.Json.Reader
import GridRobot.Proofs.Json.Tokens

/-!
# Reading the tokens of a value

A reader that lets no more than `limit` containers hold something at a time reads the tokens of a
value exactly if the value nests no deeper, counted from where the reader stands. So the text of a
value that nests no deeper than the limit is read back to the value, and any other is refused.
-/

namespace GridRobot.Json

/-- The value that reading tokens from a state leads to. -/
def Reader.run (limit : Nat) (s : Reader) (ts : List Token) : Option Reader :=
  ts.foldlM (Reader.step limit) s

namespace Reader

variable {limit : Nat} {around : List Open}

@[simp] theorem run_nil (s : Reader) : run limit s [] = some s := rfl

theorem run_cons (s : Reader) (t : Token) (ts : List Token) :
    run limit s (t :: ts) = (step limit s t).bind fun s' => run limit s' ts := rfl

theorem run_append (s : Reader) (ts us : List Token) :
    run limit s (ts ++ us) = (run limit s ts).bind fun s' => run limit s' us := by
  simp [run, List.foldlM_append]

end Reader

theorem tokens_head (v : Json) : ∃ t ts, v.tokens = t :: ts ∧ t ≠ .closeArray := by
  cases v with
  | array vs => cases vs <;> exact ⟨_, _, rfl, by simp⟩
  | object ms => cases ms <;> exact ⟨_, _, rfl, by simp⟩
  | _ => exact ⟨_, _, rfl, by simp⟩

theorem step_item {limit : Nat} {around : List Open} {t : Token} (h : t ≠ .closeArray) :
    Reader.step limit (.item around) t =
      if around.length < limit then Reader.start (.array [] :: around) t else none := by
  cases t <;> first | rfl | exact absurd rfl h

/-- The first item of an array is read like any value, if there is room for it. -/
theorem run_item (limit : Nat) (around : List Open) (v : Json) (us : List Token) :
    Reader.run limit (.item around) (v.tokens ++ us) =
      if around.length < limit then Reader.run limit (.value (.array [] :: around)) (v.tokens ++ us)
      else none := by
  obtain ⟨t, ts, ht, hne⟩ := v.tokens_head
  rw [ht, List.cons_append, Reader.run_cons, Reader.run_cons, step_item hne]
  split <;> rfl

/-- A new key goes to the end. -/
theorem insert_of_not_mem {k : String} {v : Json} {ms : List (String × Json)}
    (h : k ∉ ms.map Prod.fst) : insert k v ms = ms ++ [(k, v)] := by
  induction ms with
  | nil => rfl
  | cons m ms ih =>
    rw [List.map_cons, List.mem_cons, not_or] at h
    have hne : ¬m.1 = k := fun he => h.1 he.symm
    rw [insert, if_neg hne, ih h.2, List.cons_append]

theorem not_mem_of_nodup {k : String} {v : Json} {before ms : List (String × Json)}
    (h : ((before ++ (k, v) :: ms).map Prod.fst).Nodup) : k ∉ before.map Prod.fst := by
  intro hk
  rw [List.map_append, List.nodup_append] at h
  exact h.2.2 k hk k (by simp) rfl

theorem run_key (limit : Nat) (around : List Open) (before : List (String × Json)) (k k' : String)
    (v : Json) (us : List Token) :
    Reader.run limit (.done v (.object before k :: around))
        (.comma :: .scalar (.string k') :: .colon :: us) =
      Reader.run limit (.value (.object (insert k v before) k' :: around)) us := rfl

mutual

/-- Reading the tokens of a value completes the value if there is room for all that it holds, and
fails otherwise. -/
theorem run_tokens (limit : Nat) : ∀ (v : Json), v.Legible → ∀ around : List Open,
    around.length ≤ limit → Reader.run limit (.value around) v.tokens =
      if around.length + v.depth ≤ limit then some (.done v around) else none
  | null, _, around, h => by simp [tokens, Reader.run_cons, Reader.step, Reader.start, depth, h]
  | bool b, _, around, h => by simp [tokens, Reader.run_cons, Reader.step, Reader.start, depth, h]
  | integer n, _, around, h => by
    simp [tokens, Reader.run_cons, Reader.step, Reader.start, depth, h]
  | string s, _, around, h => by
    simp [tokens, Reader.run_cons, Reader.step, Reader.start, depth, h]
  | array [], _, around, h => by
    simp [tokens, Reader.run_cons, Reader.step, Reader.start, depth, depthItems, h]
  | array (v :: vs), hl, around, _ => by
    have hopen : Reader.step limit (.value around) .openArray = some (.item around) := rfl
    rw [tokens, Reader.run_cons, hopen, Option.bind_some, run_item, depth, depthItems]
    by_cases hroom : around.length < limit
    · have hin : (Open.array [] :: around).length = around.length + 1 := rfl
      rw [if_pos hroom, Reader.run_append, run_tokens limit v hl.1 _ (by omega), hin]
      by_cases hv : around.length + 1 + v.depth ≤ limit
      · rw [if_pos hv, Option.bind_some, run_items limit vs hl.2 v [] around hroom]
        exact if_congr (by omega) rfl rfl
      · rw [if_neg hv, if_neg (by omega), Option.bind_none]
    · rw [if_neg hroom, if_neg (by omega)]
  | object [], _, around, h => by
    simp [tokens, Reader.run_cons, Reader.step, Reader.start, depth, depthMembers, h]
  | object ((k, v) :: ms), hl, around, _ => by
    have hopen : Reader.step limit (.value around) .openObject = some (.member around) := rfl
    have hkey : Reader.step limit (.member around) (.scalar (.string k)) =
        if around.length < limit then some (.colon [] k around) else none := rfl
    have hcolon : Reader.step limit (.colon [] k around) .colon =
        some (.value (.object [] k :: around)) := rfl
    rw [tokens, Reader.run_cons, hopen, Option.bind_some, Reader.run_cons, hkey, depth,
      depthMembers]
    by_cases hroom : around.length < limit
    · have hin : (Open.object [] k :: around).length = around.length + 1 := rfl
      rw [if_pos hroom, Option.bind_some, Reader.run_cons, hcolon, Option.bind_some,
        Reader.run_append, run_tokens limit v hl.2.1 _ (by omega), hin]
      by_cases hv : around.length + 1 + v.depth ≤ limit
      · rw [if_pos hv, Option.bind_some,
          run_members limit ms hl.2.2 k v [] around hl.1 hroom]
        exact if_congr (by omega) rfl rfl
      · rw [if_neg hv, if_neg (by omega), Option.bind_none]
    · rw [if_neg hroom, if_neg (by omega), Option.bind_none]

theorem run_items (limit : Nat) : ∀ (vs : List Json), LegibleItems vs →
    ∀ (v : Json) (before : List Json) (around : List Open), around.length < limit →
      Reader.run limit (.done v (.array before :: around)) (itemTokens vs ++ [.closeArray]) =
        if around.length + depthItems vs ≤ limit then
          some (.done (.array ((v :: before).reverse ++ vs)) around)
        else none
  | [], _, v, before, around, h => by
    simp [itemTokens, Reader.run_cons, Reader.step, depthItems, Nat.le_of_lt h]
  | w :: vs, hl, v, before, around, h => by
    have hcomma : Reader.step limit (.done v (.array before :: around)) .comma =
        some (.value (.array (v :: before) :: around)) := rfl
    have hin : (Open.array (v :: before) :: around).length = around.length + 1 := rfl
    rw [itemTokens, List.cons_append, Reader.run_cons, hcomma, Option.bind_some,
      List.append_assoc, Reader.run_append, run_tokens limit w hl.1 _ (by omega), hin, depthItems]
    by_cases hw : around.length + 1 + w.depth ≤ limit
    · have hitems : (w :: v :: before).reverse ++ vs = (v :: before).reverse ++ w :: vs := by simp
      rw [if_pos hw, Option.bind_some, run_items limit vs hl.2 w (v :: before) around h, hitems]
      exact if_congr (by omega) rfl rfl
    · rw [if_neg hw, if_neg (by omega), Option.bind_none]

theorem run_members (limit : Nat) : ∀ (ms : List (String × Json)), LegibleMembers ms →
    ∀ (k : String) (v : Json) (before : List (String × Json)) (around : List Open),
      ((before ++ (k, v) :: ms).map Prod.fst).Nodup → around.length < limit →
      Reader.run limit (.done v (.object before k :: around))
          (memberTokens ms ++ [.closeObject]) =
        if around.length + depthMembers ms ≤ limit then
          some (.done (.object (before ++ (k, v) :: ms)) around)
        else none
  | [], _, k, v, before, around, hd, h => by
    have hnew : k ∉ before.map Prod.fst := not_mem_of_nodup hd
    simp [memberTokens, Reader.run_cons, Reader.step, depthMembers, Nat.le_of_lt h,
      insert_of_not_mem hnew]
  | (k', w) :: ms, hl, k, v, before, around, hd, h => by
    have hnew : k ∉ before.map Prod.fst := not_mem_of_nodup hd
    have hmembers : before ++ (k, v) :: (k', w) :: ms =
        (before ++ [(k, v)]) ++ (k', w) :: ms := by simp
    have hin : (Open.object (before ++ [(k, v)]) k' :: around).length = around.length + 1 := rfl
    rw [hmembers] at hd ⊢
    rw [memberTokens, List.cons_append, List.cons_append, List.cons_append, run_key,
      insert_of_not_mem hnew, List.append_assoc, Reader.run_append,
      run_tokens limit w hl.1 _ (by omega), hin, depthMembers]
    by_cases hw : around.length + 1 + w.depth ≤ limit
    · rw [if_pos hw, Option.bind_some,
        run_members limit ms hl.2 k' w (before ++ [(k, v)]) around hd h]
      exact if_congr (by omega) rfl rfl
    · rw [if_neg hw, if_neg (by omega), Option.bind_none]

end

/-- The value that the tokens of a text spell is found again in the text, if it is not too deep. -/
theorem parse?_text (limit : Nat) {v : Json} (h : v.Legible) :
    parse? limit v.text = if v.depth ≤ limit then some v else none := by
  have hrun := run_tokens limit v h [] (Nat.zero_le _)
  rw [List.length_nil, Nat.zero_add] at hrun
  rw [parse?, tokens?_text h, Option.bind_eq_bind, Option.bind_some, ofTokens?]
  rw [Reader.run] at hrun
  rw [hrun]
  split <;> rfl

end GridRobot.Json
