import GridRobot.Board
import GridRobot.Campaign.Levels
import GridRobot.Campaign.Visit

/-!
# Playing a campaign through

One pass over the levels of a campaign: each unlocked level is played with its own solution, and the
run recorded.
-/

namespace GridRobot.Campaign

/-- How the levels of a pass are run. -/
def passConfig : Config := { verbose := true }

/-- The lines that tell of a visit. -/
def Visit.lines (v : Visit) : List String :=
  let rule := String.ofList (List.replicate 60 '=')
  let head := [rule, s!"LEVEL {v.level.id}: {v.level.name}", s!"  {v.level.description}", rule]
  match v.played with
  | none => head ++ ["  locked — previous level not completed", ""]
  | some (e, r) =>
    let (done, total) := v.campaign.progress
    let next := (v.campaign.next v.level.id).toOption.getD v.level.id
    head ++ v.level.solution.executionLines v.level passConfig ++ [""] ++
      (Board.draw v.level (some e.final)).rows ++
      ["", s!"Rating: {r.name} ({e.stats.steps} steps)", s!"MISSION PROGRESS: {done} / {total}",
        s!"Next: level {next}", ""]

/-- Visits levels one after the other, and gives the campaign at the end. -/
def pass (c : Campaign) : List Level → Except RunError (Campaign × List Visit)
  | [] => return (c, [])
  | l :: ls => do
    let v ← visit c l l.solution passConfig
    let (c, vs) ← pass v.campaign ls
    return (c, v :: vs)

/-- The text of a pass over the built-in levels. -/
def demo : String :=
  match pass { levels := builtin } builtin with
  | .ok (_, visits) => Text.endLines (visits.flatMap Visit.lines)
  | .error e => Text.endLines [e.message]

end GridRobot.Campaign
