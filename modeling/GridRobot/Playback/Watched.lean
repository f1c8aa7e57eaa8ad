import GridRobot.Event

/-!
# Watched playbacks

A playback is watched when all that it reports is written to a log at once. An instruction whose
report cannot be written is not performed, and a run breaks off in front of it. The main statement
says that watching changes nothing about a run that does not break off.
-/

namespace GridRobot

/-- What cannot be written to a log. -/
structure Unwritable where
  event : Event
  deriving DecidableEq, Repr

/-- The first of some events that cannot be written. -/
def Unwritable.find? (events : List Event) : Option Unwritable :=
  (events.find? fun e => ¬e.Writable).map Unwritable.mk

/-- Performs an instruction unless its report cannot be written. -/
def Robot.watchedStep (l : Level) (r : Robot) (i : Instruction) : Except Unwritable Robot :=
  match Unwritable.find? (r.events l i) with
  | some u => .error u
  | none => .ok (r.step l i)

namespace Playback

/-- What keeps a tick from being watched. -/
def unwritable? (p : Playback) : Option Unwritable := Unwritable.find? p.tickEvents

/-- The playback in front of which a watched run breaks off, if it does. -/
def breakOff? (p : Playback) : Option Playback := p.runTrail.find? fun q => q.unwritable?.isSome

/-- The playback before each tick of a watched run, until it has ended or breaks off. -/
def watchedTrail (p : Playback) : List Playback :=
  p.runTrail.takeWhile fun q => !q.unwritable?.isSome

/-- What is reported by a watched run. -/
def watchedEvents (p : Playback) : List Event := p.resumeEvents ++ p.watchedTrail.flatMap tickEvents

/-- What is printed by a watched run. -/
def watchedLines (p : Playback) : List String := p.watchedTrail.flatMap tickLines

theorem watchedTrail_eq_runTrail {p : Playback} (h : p.breakOff? = none) :
    p.watchedTrail = p.runTrail := by
  rw [breakOff?, List.find?_eq_none] at h
  rw [watchedTrail]
  generalize p.runTrail = trail at h
  induction trail with
  | nil => rfl
  | cons q trail ih => simp_all

theorem watchedEvents_eq_runEvents {p : Playback} (h : p.breakOff? = none) :
    p.watchedEvents = p.runEvents := by
  rw [watchedEvents, watchedTrail_eq_runTrail h, runEvents]

end Playback

end GridRobot
