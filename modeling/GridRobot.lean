import GridRobot.Main
import GridRobot.Trace.Listing
import GridRobot.Validation.Choice
import GridRobot.Campaign.Demo
import GridRobot.Proofs.Execution.History
import GridRobot.Proofs.Execution.Limit
import GridRobot.Proofs.Execution.Sequence
import GridRobot.Proofs.Execution.TreeWalk
import GridRobot.Proofs.Execution.Ground
import GridRobot.Proofs.Execution.Obstacles
import GridRobot.Proofs.Execution.Symmetry
import GridRobot.Proofs.Execution.Coinless
import GridRobot.Proofs.Lookup.Raised
import GridRobot.Proofs.Robot.Coins
import GridRobot.Proofs.Robot.Crashes
import GridRobot.Proofs.Robot.Reckoning
import GridRobot.Proofs.Board.Picture
import GridRobot.Proofs.Robot.Journal
import GridRobot.Proofs.Robot.Return
import GridRobot.Proofs.Robot.RightTurns
import GridRobot.Proofs.Block.RoundTrip
import GridRobot.Proofs.Block.Grammar
import GridRobot.Proofs.Block.Placement
import GridRobot.Proofs.CommandLine.Agreement
import GridRobot.Proofs.CommandLine.Ending
import GridRobot.Proofs.Campaign.Books
import GridRobot.Proofs.Campaign.Unlocking
import GridRobot.Proofs.Campaign.Cycle
import GridRobot.Proofs.Trace.Passes
import GridRobot.Proofs.Block.Leaves
import GridRobot.Proofs.Trace.Tally
import GridRobot.Proofs.Block.Addresses
import GridRobot.Proofs.Palette.Walk
import GridRobot.Proofs.Palette.Coverage
import GridRobot.Proofs.Playback.Next
import GridRobot.Proofs.Block.Unambiguous
import GridRobot.Proofs.Campaign.Pass
import GridRobot.Proofs.Trace.Listing
import GridRobot.Proofs.Level.Keys
import GridRobot.Proofs.Level.Numbers
