import Mathlib.Order.Bounds.Basic
import GridRobot.Playback.Basic
import GridRobot.Proofs.Robot.Safety

/-!
# Where a run ends

A run of a trace under a step limit goes on until the robot has crashed or won, the trace is over or
the limit is reached. `Ends` says after how many steps that is, not how the run is driven; there is
only one such number, so whatever drives a run to it ends in the same way.
-/

namespace GridRobot

/-- The number of steps that a configuration allows. -/
def Config.limit (c : Config) : Nat := c.maxSteps.toNat

theorem Config.coe_limit (c : Config) : (c.limit : Int) = max c.maxSteps 0 := by
  simp only [limit]; omega

theorem Config.limit_le_iff (c : Config) (k : Nat) : c.limit ≤ k ↔ c.maxSteps ≤ k := by
  simp only [limit]; omega

namespace Robot

variable {l : Level} {r : Robot} {s t : List Instruction}

/-- The robot after the first `k` instructions of a trace. -/
def after (l : Level) (r : Robot) (t : List Instruction) (k : Nat) : Robot := run l r (t.take k)

@[simp] theorem after_zero (l : Level) (r : Robot) (t : List Instruction) : after l r t 0 = r := rfl

@[simp] theorem after_cons_succ (l : Level) (r : Robot) (i : Instruction) (t : List Instruction)
    (k : Nat) : after l r (i :: t) (k + 1) = after l (step l r i) t k := rfl

theorem after_succ {k : Nat} {i : Instruction} (h : t[k]? = some i) :
    after l r t (k + 1) = step l (after l r t k) i := by
  rw [after, List.take_add_one, h, run_append]
  rfl

theorem after_append_of_le {k : Nat} (h : k ≤ s.length) : after l r (s ++ t) k = after l r s k := by
  rw [after, after, List.take_append_of_le_length h]

theorem after_append_add (j : Nat) :
    after l r (s ++ t) (s.length + j) = after l (after l r s s.length) t j := by
  rw [after, after, after, List.take_length_add_append, run_append, List.take_length]

/-- After some steps a run goes on with the rest of its instructions. -/
theorem after_eq_run {j k : Nat} (hjk : j ≤ k) :
    after l r t k = run l (after l r t j) ((t.take k).drop j) := by
  have hsplit := List.take_append_drop j (t.take k)
  rw [List.take_take, Nat.min_eq_left hjk] at hsplit
  rw [after, ← hsplit, run_append, hsplit]
  rfl

/-- What is running after some steps was running after fewer. -/
theorem running_of_le {j k : Nat} (hjk : j ≤ k) (h : (after l r t k).terminal = false) :
    (after l r t j).terminal = false := by
  rw [after_eq_run hjk] at h
  exact running_of_run h

/-- What has crashed or won after some steps stays as it is. -/
theorem after_of_terminal {j k : Nat} (hjk : j ≤ k) (h : (after l r t j).terminal = true) :
    after l r t k = after l r t j := by
  rw [after_eq_run hjk, run_of_terminal h]

end Robot

namespace Outcome

/-- How a run of a trace of this length ended that stopped with this robot after `k` steps. -/
def of (r : Robot) (k length : Nat) : Outcome :=
  if r.crashed then .crashed
  else if r.won then .won
  else if length ≤ k then .exhausted
  else .stepLimit

variable {r : Robot} {k length : Nat}

theorem of_eq_crashed_iff : of r k length = .crashed ↔ r.crashed = true := by
  unfold of
  cases r.crashed <;> cases r.won <;> simp
  split <;> simp

/-- A crash takes precedence, so a win is only told of a robot that has not crashed. -/
theorem of_eq_won_iff (h : ¬(r.crashed = true ∧ r.won = true)) :
    of r k length = .won ↔ r.won = true := by
  unfold of
  cases hc : r.crashed <;> cases hw : r.won <;> simp_all
  split <;> simp

theorem of_eq_exhausted_iff :
    of r k length = .exhausted ↔ r.terminal = false ∧ length ≤ k := by
  unfold of Robot.terminal
  cases r.crashed <;> cases r.won <;> simp

theorem of_eq_stepLimit_iff :
    of r k length = .stepLimit ↔ r.terminal = false ∧ k < length := by
  unfold of Robot.terminal
  cases r.crashed <;> cases r.won <;> simp

end Outcome

/-- In front of step `k` there is a reason to stop: a crash or a win, the end of the trace, or the
limit `n`. -/
def Stops (l : Level) (r : Robot) (t : List Instruction) (n k : Nat) : Prop :=
  (r.after l t k).terminal = true ∨ t.length ≤ k ∨ n ≤ k

instance (l : Level) (r : Robot) (t : List Instruction) (n k : Nat) : Decidable (Stops l r t n k) :=
  inferInstanceAs (Decidable (_ ∨ _ ∨ _))

/-- Started with `r`, a trace under a limit of `n` runs for exactly `k` steps. -/
structure Ends (l : Level) (r : Robot) (t : List Instruction) (n k : Nat) : Prop where
  le_length : k ≤ t.length
  le_limit : k ≤ n
  running : ∀ j < k, (r.after l t j).terminal = false
  stops : Stops l r t n k

namespace Ends

open Robot

variable {l : Level} {r : Robot} {t : List Instruction} {n k : Nat}

/-- One step further than a moment at which nothing stops a run, it ends if something does. -/
theorem succ (hgo : ¬Stops l r t n k) (hstop : Stops l r t n (k + 1)) : Ends l r t n (k + 1) := by
  obtain ⟨hrun, hlen, hlim⟩ : ¬(after l r t k).terminal = true ∧ ¬t.length ≤ k ∧ ¬n ≤ k := by
    simpa only [Stops, not_or] using hgo
  refine ⟨by omega, by omega, ?_, hstop⟩
  intro j hj
  exact running_of_le (Nat.le_of_lt_succ hj) (by simpa using hrun)

/-- A robot that has crashed or won performs nothing. -/
theorem zero (h : Stops l r t n 0) : Ends l r t n 0 :=
  ⟨Nat.zero_le _, Nat.zero_le _, by intro j hj; omega, h⟩

/-- The end of a run is one further away from one step before its start. -/
theorem cons {i : Instruction} (hr : r.terminal = false) (h : Ends l (step l r i) t n k) :
    Ends l r (i :: t) (n + 1) (k + 1) := by
  obtain ⟨hlen, hlim, hrun, hstop⟩ := h
  refine ⟨by simpa using hlen, by omega, ?_, ?_⟩
  · intro j hj
    cases j with
    | zero => exact hr
    | succ j => exact hrun j (by omega)
  · rcases hstop with ht | hs | hs
    · exact .inl ht
    · exact .inr (.inl (by simpa using hs))
    · exact .inr (.inr (by omega))

/-- Runs of traces of one length end at the same moment if the robots come to a stop at the same
moments. -/
theorem transfer {l' : Level} {r' : Robot} {t' : List Instruction} (hlen : t'.length = t.length)
    (hterminal : ∀ j ≤ k, (after l' r' t' j).terminal = (after l r t j).terminal)
    (h : Ends l r t n k) : Ends l' r' t' n k := by
  obtain ⟨hle, hlim, hrun, hstop⟩ := h
  refine ⟨by omega, hlim, ?_, ?_⟩
  · intro j hj
    rw [hterminal j (by omega)]
    exact hrun j hj
  · rwa [Stops, hterminal k (Nat.le_refl k), hlen]

/-- Every run of a running robot has an end. -/
theorem exists_of_running (t : List Instruction) (hr : r.terminal = false) (n : Nat) :
    ∃ k, Ends l r t n k := by
  induction t generalizing r n with
  | nil => exact ⟨0, zero (.inr (.inl (by simp)))⟩
  | cons i t ih =>
    cases n with
    | zero => exact ⟨0, zero (.inr (.inr (by omega)))⟩
    | succ n =>
      by_cases ht : (step l r i).terminal = true
      · exact ⟨1, cons hr (zero (.inl ht))⟩
      · obtain ⟨k, hk⟩ := ih (by simpa using ht) n
        exact ⟨k + 1, cons hr hk⟩

/-- The end of a run is the first moment at which it may stop. -/
theorem isLeast (h : Ends l r t n k) :
    IsLeast {j | j ≤ min t.length n ∧
      ((after l r t j).terminal = true ∨ j = min t.length n)} k := by
  obtain ⟨hlen, hlim, hrun, hstop⟩ := h
  constructor
  · refine ⟨by omega, ?_⟩
    rcases hstop with ht | hs | hs
    · exact .inl ht
    · exact .inr (by omega)
    · exact .inr (by omega)
  · rintro j ⟨hj, hstop'⟩
    by_cases hlt : j < k
    · rcases hstop' with ht | he
      · rw [hrun j hlt] at ht
        exact absurd ht (by decide)
      · omega
    · omega

theorem unique {k' : Nat} (h : Ends l r t n k) (h' : Ends l r t n k') : k = k' :=
  h.isLeast.unique h'.isLeast

/-- The trace is never passed, so a run that has used it up is right behind it. -/
theorem exhausted_iff (h : Ends l r t n k) :
    Outcome.of (after l r t k) k t.length = .exhausted ↔
      (after l r t k).terminal = false ∧ k = t.length := by
  have hlen := h.le_length
  rw [Outcome.of_eq_exhausted_iff]
  constructor
  · rintro ⟨hr, hk⟩
    exact ⟨hr, by omega⟩
  · rintro ⟨hr, hk⟩
    exact ⟨hr, by omega⟩

/-- Only the limit stops a running robot in front of an instruction. -/
theorem stepLimit_iff (h : Ends l r t n k) :
    Outcome.of (after l r t k) k t.length = .stepLimit ↔
      (after l r t k).terminal = false ∧ k < t.length ∧ k = n := by
  rw [Outcome.of_eq_stepLimit_iff]
  constructor
  · rintro ⟨hr, hk⟩
    have hlim := h.le_limit
    rcases h.stops with ht | hs | hs
    · rw [hr] at ht
      exact absurd ht (by decide)
    · omega
    · exact ⟨hr, hk, by omega⟩
  · rintro ⟨hr, hk, -⟩
    exact ⟨hr, hk⟩

end Ends

end GridRobot
