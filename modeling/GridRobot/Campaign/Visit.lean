import GridRobot.Campaign.Basic

/-!
# Visits

A visit to a level of a campaign plays the level, if it is unlocked, and records the run.
-/

namespace GridRobot.Campaign

/-- The outcome of one visit: the campaign afterwards, and the execution unless the level was
locked. -/
structure Visit where
  campaign : Campaign
  level : Level
  played : Option (Execution × Rating)

/-- Plays a level with a program, if it is unlocked, and records the run. -/
def visit (c : Campaign) (l : Level) (program : Program) (config : Config) :
    Except RunError Visit := do
  match c.unlocked l.id with
  | .ok true =>
    let e ← program.execute l config
    let r := program.rating l e.final.won
    return ⟨((c.record l.id r).toOption).getD c, l, some (e, r)⟩
  | _ => return ⟨c, l, none⟩

/-- What a visit reports. -/
def visitEvents (c : Campaign) (l : Level) (program : Program) (config : Config) : List Event :=
  match c.visit l program config with
  | .ok ⟨_, _, some (_, r)⟩ => (Playback.new program l config).runEvents ++ c.recordEvents l.id r
  | _ => []

end GridRobot.Campaign
