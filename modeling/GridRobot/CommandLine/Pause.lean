import GridRobot.Number.Double

/-!
# Pauses

The length of a pause is asked for in seconds, and counted in nanoseconds by a signed word of 64
bits.
-/

namespace GridRobot.CommandLine

/-- Why a pause cannot be made. -/
inductive PauseFault where
  /-- It lasts longer than can be counted. -/
  | tooLong
  /-- The count is the first that no longer fits, and wraps around. -/
  | negative
  deriving DecidableEq, Repr

/-- The nanoseconds of a pause, rounded up. A number of seconds that is not greater than zero asks
for none. -/
def pauseLength (seconds : Double) : Except PauseFault Nat :=
  if !seconds.isPositive then .ok 0
  else match seconds.times (Nat.pow 10 9) with
    | .finite _ mantissa exponent =>
      let unit := Nat.pow 2 (-exponent).toNat
      let count := (mantissa * Nat.pow 2 exponent.toNat + (unit - 1)) / unit
      if count < Nat.pow 2 63 then .ok count
      else .error (if count = Nat.pow 2 63 then .negative else .tooLong)
    | _ => .error .tooLong

theorem pauseLength_lt {seconds : Double} {n : Nat} (h : pauseLength seconds = .ok n) :
    n < Nat.pow 2 63 := by
  unfold pauseLength at h
  split at h
  · cases h
    decide
  · split at h
    · simp only at h
      split at h
      · cases h
        assumption
      · cases h
    · cases h

end GridRobot.CommandLine
