import Mathlib.Algebra.BigOperators.Group.List.Lemmas
import Mathlib.Algebra.Ring.Nat

/-!
# First appearances

What a list has when only the first appearance of each item is kept, in that order. Going through a
list once more adds nothing to it, and neither does a list whose items have all appeared.
-/

namespace GridRobot.Firsts

variable {α : Type} [DecidableEq α]

theorem eraseDups_concat (l : List α) (a : α) :
    (l ++ [a]).eraseDups = if a ∈ l then l.eraseDups else l.eraseDups ++ [a] := by
  by_cases h : a ∈ l <;> simp [List.eraseDups_append, List.removeAll, h, List.eraseDups_cons]

theorem nodup_eraseDups (l : List α) : l.eraseDups.Nodup := by
  induction l using List.reverseRecOn with
  | nil => simp
  | append_singleton l a ih =>
    rw [eraseDups_concat]
    split
    · exact ih
    · rename_i h
      refine ih.append (List.nodup_singleton a) ?_
      simpa using h

theorem eraseDups_filter (p : α → Bool) (l : List α) :
    (l.filter p).eraseDups = l.eraseDups.filter p := by
  induction l using List.reverseRecOn with
  | nil => simp
  | append_singleton l a ih =>
    rw [List.filter_append, eraseDups_concat]
    by_cases hp : p a
    · by_cases h : a ∈ l <;> simp [hp, h, eraseDups_concat, ih]
    · by_cases h : a ∈ l <;> simp [hp, h, ih]

/-- The first appearances in two lists together depend only on those in each. -/
theorem eraseDups_append_congr {l l' m m' : List α} (hl : l.eraseDups = l'.eraseDups)
    (hm : m.eraseDups = m'.eraseDups) : (l ++ m).eraseDups = (l' ++ m').eraseDups := by
  have hmem (a : α) : a ∈ l ↔ a ∈ l' := by
    rw [← List.mem_eraseDups, hl, List.mem_eraseDups]
  have hrest : m.removeAll l = m.removeAll l' := by
    simp only [List.removeAll, List.elem_eq_mem, hmem]
  rw [List.eraseDups_append, List.eraseDups_append, hrest, hl, List.removeAll, List.removeAll,
    eraseDups_filter, eraseDups_filter, hm]

theorem eraseDups_append_of_subset {l m : List α} (h : m ⊆ l) :
    (l ++ m).eraseDups = l.eraseDups := by
  have hnone : m.removeAll l = [] := by
    rw [List.removeAll, List.filter_eq_nil_iff]
    intro a ha
    simpa using h ha
  rw [List.eraseDups_append, hnone, List.eraseDups_nil, List.append_nil]

/-- Copies of a list add nothing to the first of them. -/
theorem eraseDups_copies (n : Nat) (l : List α) :
    (List.replicate n l).flatten.eraseDups = if n = 0 then [] else l.eraseDups := by
  cases n with
  | zero => simp
  | succ n =>
    rw [List.replicate_succ, List.flatten_cons, if_neg (Nat.succ_ne_zero n)]
    refine eraseDups_append_of_subset ?_
    intro a ha
    obtain ⟨m, hm, hma⟩ := List.mem_flatten.mp ha
    rwa [List.eq_of_mem_replicate hm] at hma

/-- How often each item occurs, added up over the items that occur. -/
theorem sum_count_eraseDups (l : List α) : (l.eraseDups.map l.count).sum = l.length := by
  have hperm : l.eraseDups.Perm l.dedup := by
    rw [List.perm_ext_iff_of_nodup (nodup_eraseDups l) l.nodup_dedup]
    intro a
    rw [List.mem_eraseDups, List.mem_dedup]
  rw [(hperm.map l.count).sum_eq, List.sum_map_count_dedup_eq_length]

end GridRobot.Firsts
