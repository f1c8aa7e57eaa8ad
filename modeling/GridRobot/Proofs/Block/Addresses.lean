import GridRobot.Score

/-!
# Addresses

An address leads to a block of a program: it has the index of a block of the program, then that of a
block in the body of this one, and so on. In the order of addresses, which is that of words in a
dictionary, a loop comes before its body and its body before what follows the loop. Preorder lists
all blocks in the order of their addresses, each once.
-/

namespace GridRobot

namespace Block

/-- The block at an address inside a block; the empty address is that of the block itself. -/
def inner? : List Nat → Block → Option Block
  | [], b => some b
  | n :: a, b => b.body[n]?.bind (inner? a)

/-- The block at an address among some blocks. The empty address is that of all of them, which is no
block. -/
def at? (bs : List Block) : List Nat → Option Block
  | [] => none
  | n :: a => bs[n]?.bind (inner? a)

mutual

/-- All addresses inside a block, in order. -/
def addresses : Block → List (List Nat)
  | basic _ => [[]]
  | loop _ body => [] :: addressesFrom 0 body

/-- All addresses of some blocks that stand behind `n` others. -/
def addressesFrom (n : Nat) : List Block → List (List Nat)
  | [] => []
  | b :: bs => (addresses b).map (n :: ·) ++ addressesFrom (n + 1) bs

end

/-- Blocks behind `n` others have addresses that begin with `n` or more. -/
theorem exists_of_mem_addressesFrom {n : Nat} {bs : List Block} {a : List Nat}
    (h : a ∈ addressesFrom n bs) : ∃ m rest, a = m :: rest ∧ n ≤ m := by
  induction bs generalizing n with
  | nil => simp [addressesFrom] at h
  | cons b bs ih =>
    rw [addressesFrom, List.mem_append, List.mem_map] at h
    rcases h with ⟨rest, -, rfl⟩ | h
    · exact ⟨n, rest, rfl, Nat.le_refl n⟩
    · obtain ⟨m, rest, rfl, hm⟩ := ih h
      exact ⟨m, rest, rfl, by omega⟩

mutual

theorem addresses_sorted : ∀ b : Block, (addresses b).Pairwise (· < ·)
  | basic _ => List.pairwise_singleton _ _
  | loop _ body => by
    refine List.pairwise_cons.mpr ⟨?_, addressesFrom_sorted 0 body⟩
    intro a ha
    obtain ⟨m, rest, rfl, -⟩ := exists_of_mem_addressesFrom ha
    exact List.nil_lt_cons m rest

theorem addressesFrom_sorted (n : Nat) : ∀ bs : List Block, (addressesFrom n bs).Pairwise (· < ·)
  | [] => List.Pairwise.nil
  | b :: bs => by
    refine List.pairwise_append.mpr ⟨?_, addressesFrom_sorted (n + 1) bs, ?_⟩
    · refine List.pairwise_map.mpr ((addresses_sorted b).imp ?_)
      intro a a' h
      exact List.cons_lt_cons_iff.mpr (.inr ⟨rfl, h⟩)
    · intro a ha a' ha'
      obtain ⟨rest, -, rfl⟩ := List.mem_map.mp ha
      obtain ⟨m, rest', rfl, hm⟩ := exists_of_mem_addressesFrom ha'
      exact List.cons_lt_cons_iff.mpr (.inl hm)

end

mutual

theorem mem_addresses_iff {a : List Nat} : ∀ b : Block, a ∈ addresses b ↔ (inner? a b).isSome
  | basic i => by cases a <;> simp [addresses, inner?, body]
  | loop n body => by
    cases a with
    | nil => simp [addresses, inner?]
    | cons m rest => simp [addresses, inner?, Block.body, mem_addressesFrom_iff 0 body]

theorem mem_addressesFrom_iff {m : Nat} {rest : List Nat} (n : Nat) : ∀ bs : List Block,
    m :: rest ∈ addressesFrom n bs ↔ n ≤ m ∧ (bs[m - n]?.bind (inner? rest)).isSome
  | [] => by simp [addressesFrom]
  | b :: bs => by
    rw [addressesFrom, List.mem_append, mem_addressesFrom_iff (n + 1) bs]
    rcases Nat.lt_trichotomy m n with h | rfl | h
    · have hne : ¬n = m := by omega
      have hle : ¬n ≤ m := by omega
      have hlt : ¬n + 1 ≤ m := by omega
      simp [hne, hle, hlt]
    · have hlt : ¬m + 1 ≤ m := by omega
      simp [hlt, mem_addresses_iff b]
    · have hne : ¬n = m := by omega
      have hle : n ≤ m := by omega
      have hlt : n + 1 ≤ m := by omega
      have hindex : m - n = m - (n + 1) + 1 := by omega
      simp [hne, hle, hlt, hindex]

end

mutual

theorem preorder_addresses : ∀ b : Block, (preorder b).map some = (addresses b).map (inner? · b)
  | basic _ => rfl
  | loop n body => by
    have hbody := preorderAll_addressesFrom [] body
    rw [preorder, addresses, List.map_cons, List.map_cons, hbody]
    refine congrArg (some (loop n body) :: ·) (List.map_congr_left ?_)
    intro a ha
    obtain ⟨m, rest, rfl, -⟩ := exists_of_mem_addressesFrom ha
    rfl

theorem preorderAll_addressesFrom (before : List Block) : ∀ bs : List Block,
    (preorderAll bs).map some = (addressesFrom before.length bs).map (at? (before ++ bs))
  | [] => rfl
  | b :: bs => by
    have hrest := preorderAll_addressesFrom (before ++ [b]) bs
    rw [List.length_append, List.append_assoc] at hrest
    have hfirst : at? (before ++ b :: bs) ∘ (before.length :: ·) = (inner? · b) := by
      funext a
      simp [at?]
    rw [preorderAll, addressesFrom, List.map_append, List.map_append, hrest, preorder_addresses b,
      List.map_map, hfirst]
    rfl

end

variable {bs front back : List Block} {b c : Block} {a : List Nat}

theorem preorderAll_addresses (bs : List Block) :
    (preorderAll bs).map some = (addressesFrom 0 bs).map (at? bs) :=
  preorderAll_addressesFrom [] bs

theorem mem_addressesFrom_zero_iff : a ∈ addressesFrom 0 bs ↔ at? bs a ≠ none := by
  cases a with
  | nil =>
    have hnot : [] ∉ addressesFrom 0 bs := by
      intro h
      obtain ⟨m, rest, he, -⟩ := exists_of_mem_addressesFrom h
      exact List.cons_ne_nil m rest he.symm
    simpa [at?] using hnot
  | cons m rest =>
    rw [mem_addressesFrom_iff, at?, Option.isSome_iff_ne_none, Nat.sub_zero]
    exact and_iff_right (Nat.zero_le m)

/-- What preorder has in front of an address has a smaller one. -/
theorem mem_front_iff {as as' : List (List Nat)} (ha : addressesFrom 0 bs = as ++ a :: as')
    (hfront : front.map some = as.map (at? bs)) :
    c ∈ front ↔ ∃ a' < a, at? bs a' = some c := by
  have hsorted := addressesFrom_sorted 0 bs
  rw [ha, List.pairwise_append, List.pairwise_cons] at hsorted
  obtain ⟨-, ⟨hbehind, -⟩, hbefore⟩ := hsorted
  have hmem : c ∈ front ↔ ∃ a' ∈ as, at? bs a' = some c := by
    rw [← List.mem_map, ← hfront]
    simp
  rw [hmem]
  constructor
  · rintro ⟨a', ha', hc⟩
    exact ⟨a', hbefore a' ha' a List.mem_cons_self, hc⟩
  · rintro ⟨a', hlt, hc⟩
    refine ⟨a', ?_, hc⟩
    have hin : a' ∈ as ++ a :: as' := by
      rw [← ha, mem_addressesFrom_zero_iff, hc]
      exact Option.some_ne_none c
    rcases List.mem_append.mp hin with hin | hin
    · exact hin
    · rcases List.mem_cons.mp hin with rfl | hin
      · exact absurd hlt (List.lt_irrefl a')
      · exact absurd hlt (List.lt_asymm (hbehind a' hin))

/-- Each address divides preorder into what comes before the block there, and the rest. -/
theorem exists_split_of_at? (h : at? bs a = some b) :
    ∃ front back, preorderAll bs = front ++ b :: back ∧
      ∀ c, c ∈ front ↔ ∃ a' < a, at? bs a' = some c := by
  have hin : a ∈ addressesFrom 0 bs := by
    rw [mem_addressesFrom_zero_iff, h]
    exact Option.some_ne_none b
  obtain ⟨as, as', ha⟩ := List.append_of_mem hin
  have hall := preorderAll_addresses bs
  rw [ha, List.map_append, List.map_cons, List.map_eq_append_iff] at hall
  obtain ⟨front, rest, hsplit, hfront, hrest⟩ := hall
  obtain ⟨b', back, rfl, hb, -⟩ := List.map_eq_cons_iff.mp hrest
  obtain rfl : b' = b := Option.some_inj.mp (hb.trans h)
  exact ⟨front, back, hsplit, fun c => mem_front_iff ha hfront⟩

/-- Each block in preorder has an address. -/
theorem exists_at?_of_split (h : preorderAll bs = front ++ b :: back) :
    ∃ a, at? bs a = some b ∧ ∀ c, c ∈ front ↔ ∃ a' < a, at? bs a' = some c := by
  have hall := preorderAll_addresses bs
  rw [h, List.map_append, List.map_cons] at hall
  obtain ⟨as, rest, ha, hfront, hrest⟩ := List.map_eq_append_iff.mp hall.symm
  obtain ⟨a, as', rfl, hb, -⟩ := List.map_eq_cons_iff.mp hrest
  exact ⟨a, hb, fun c => mem_front_iff ha hfront.symm⟩

theorem mem_preorderAll_iff : b ∈ preorderAll bs ↔ ∃ a, at? bs a = some b := by
  constructor
  · intro h
    obtain ⟨front, back, hsplit⟩ := List.append_of_mem h
    obtain ⟨a, ha, -⟩ := exists_at?_of_split hsplit
    exact ⟨a, ha⟩
  · rintro ⟨a, ha⟩
    obtain ⟨front, back, hsplit, -⟩ := exists_split_of_at? ha
    rw [hsplit]
    exact List.mem_append_right _ List.mem_cons_self

/-- The first block with a property is the one with the smallest address. -/
theorem find?_preorderAll_eq_some_iff {q : Block → Bool} :
    (preorderAll bs).find? q = some b ↔ q b ∧ ∃ a, at? bs a = some b ∧
      ∀ a' < a, ∀ c, at? bs a' = some c → q c = false := by
  rw [List.find?_eq_some_iff_append]
  refine and_congr_right fun _ => ?_
  constructor
  · rintro ⟨front, back, hsplit, hfirst⟩
    obtain ⟨a, ha, hfront⟩ := exists_at?_of_split hsplit
    refine ⟨a, ha, ?_⟩
    intro a' hlt c hc
    simpa using hfirst c ((hfront c).mpr ⟨a', hlt, hc⟩)
  · rintro ⟨a, ha, hfirst⟩
    obtain ⟨front, back, hsplit, hfront⟩ := exists_split_of_at? ha
    refine ⟨front, back, hsplit, ?_⟩
    intro c hc
    obtain ⟨a', hlt, hc⟩ := (hfront c).mp hc
    simpa using hfirst a' hlt c hc

end Block

end GridRobot
