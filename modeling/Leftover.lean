import Leftover.Document.Writer
import Leftover.Given.Check
import Leftover.Main
import Leftover.Proofs.Drive
import Leftover.Proofs.Faults
import Leftover.Proofs.Survey
import Leftover.Proofs.Leftovers
import Leftover.Proofs.ExactOrder
import Leftover.Proofs.LoadProfile
import Leftover.Proofs.LoadPeaks
import Leftover.Proofs.Times
import Leftover.Proofs.Paths
import Leftover.Proofs.Validity
import Leftover.Proofs.AcceptedRuns
import Leftover.Proofs.Reasons
import Leftover.Proofs.Severities
import Leftover.Proofs.Modes
import Leftover.Proofs.Deadline
import Leftover.Proofs.Relations
import Leftover.Proofs.LockedRuns
import Leftover.Proofs.Legs
import Leftover.Proofs.Merging
import Leftover.Proofs.Sorting
import Leftover.Proofs.Records
import Leftover.Proofs.Hints
import Leftover.Proofs.RelistedChecks
import Leftover.Proofs.Rearranged
import Leftover.Proofs.FleetOrder
import Leftover.Proofs.ListingOrder
import Leftover.Proofs.Excess
import Leftover.Proofs.Leniency
import Leftover.Proofs.Allowances
import Leftover.Proofs.Disabling
import Leftover.Proofs.Audits
import Leftover.Proofs.References
import Leftover.Proofs.RouteShapes
import Leftover.Proofs.Buildable
import Leftover.Proofs.ReadBack
import Leftover.Proofs.AcceptedProblems
import Leftover.Proofs.Extremes
import Leftover.Proofs.LaterStarts
import Leftover.Proofs.BreakPlacements
import Leftover.Proofs.AddedOverruns
import Leftover.Proofs.RebuiltLoads
import Leftover.Proofs.DispatchTimes
import Leftover.Proofs.DoubleScale
import Leftover.Proofs.ClosestPositions
import Leftover.Proofs.WeakestObstacles
import Leftover.Proofs.Candidates
import Leftover.Proofs.SurveyWarnings
import Leftover.Proofs.GatedChecks
import Leftover.Proofs.Inversions
import Leftover.Proofs.ExceededLimits
import Leftover.Proofs.Summaries
import Leftover.Proofs.SoundEvidence
import Leftover.Proofs.DoubleSums
import Leftover.Proofs.Ties
import Leftover.Proofs.EarliestStarts
import Leftover.Proofs.Chronology
import Leftover.Proofs.Drift
import Leftover.Proofs.Lines
