import GraphDissect.Library.Runs
import GraphDissect.Library.ProbeTable
import GraphDissect.Library.ProbeRun
import GraphDissect.Library.OrderedMap
import GraphDissect.Library.Visits
import GraphDissect.Library.Text
import GraphDissect.Library.Numerals
import GraphDissect.Library.CString
import GraphDissect.Library.Words
import GraphDissect.Library.MapM
import GraphDissect.Fcov.Table
import GraphDissect.Fcov.Recorder
import GraphDissect.Fcov.Soundness
import GraphDissect.Fcov.Snapshot
import GraphDissect.Fcov.Events
import GraphDissect.CallGraph.Graph
import GraphDissect.CallGraph.DotWriter
import GraphDissect.CallGraph.DotParser
import GraphDissect.CallGraph.DotFields
import GraphDissect.CallGraph.DotLines
import GraphDissect.CallGraph.DotRecords
import GraphDissect.CallGraph.RoundTrip
import GraphDissect.Scheduler.Sync
import GraphDissect.Scheduler.FastSync
import GraphDissect.Scheduler.Campaign
import GraphDissect.Scheduler.Attribution
import GraphDissect.Cgx.CgxMap
import GraphDissect.Cgx.EdgeKeys
import GraphDissect.Drivers.Profile
import GraphDissect.Drivers.ActiveDriver
import GraphDissect.Drivers.Drivergen
import GraphDissect.Drivers.CommandLine
import GraphDissect.Drivers.Mailbox
import GraphDissect.Drivers.Seeds
import GraphDissect.Drivers.InputQueue
import GraphDissect.Library.Crash
import GraphDissect.Experiments.Runner
import GraphDissect.Library.Tiling
import GraphDissect.Experiments.Tiling
import GraphDissect.Experiments.Accounting
import GraphDissect.Experiments.Force
import GraphDissect.Experiments.Ownership
import GraphDissect.Experiments.Lock
import GraphDissect.Experiments.Plan
import GraphDissect.Experiments.Exclusive
import GraphDissect.Experiments.SlurmArray
import GraphDissect.Scheduler.CoverageLog
import GraphDissect.Experiments.Curves
import GraphDissect.Library.LinkedList
import GraphDissect.Drivers.DriverTable
import GraphDissect.Library.Shares
import GraphDissect.Drivers.Switching
import GraphDissect.Drivers.Statistics
import GraphDissect.Drivers.RuntimeStat
import GraphDissect.Scheduler.Handover
import GraphDissect.Scheduler.Policy
import GraphDissect.Scheduler.Rounds
import GraphDissect.Scheduler.Progress
import GraphDissect.Library.Worklist
import GraphDissect.CallGraph.Loaded
import GraphDissect.Analysis.DriverGraph
import GraphDissect.Analysis.Projection
import GraphDissect.Drivers.Prioritize
import GraphDissect.Drivers.IndependentScan
import GraphDissect.Drivers.DriverList
import GraphDissect.Cgx.NodeKeys
import GraphDissect.Drivers.RunChecker
import GraphDissect.Drivers.CommandSpec
import GraphDissect.Library.Selections
import GraphDissect.Drivers.Generate
import GraphDissect.Drivers.Constraints
import GraphDissect.CallGraph.SvfLines
import GraphDissect.CallGraph.SvfExact
import GraphDissect.Library.Codes
import GraphDissect.Library.Distinguish
import GraphDissect.Drivers.Configurations
import GraphDissect.Drivers.Ambiguity
import GraphDissect.Experiments.TailCapture
import GraphDissect.Library.Interpolation
import GraphDissect.Experiments.Bootstrap
import GraphDissect.Experiments.LockRelease
import GraphDissect.Drivers.InPlaceEdit
import GraphDissect.Library.Partition
import GraphDissect.Analysis.Regions
import GraphDissect.Library.BreadthFirst
import GraphDissect.Analysis.Traversal
import GraphDissect.Analysis.RegionFunctions
import GraphDissect.Analysis.Annotations
import GraphDissect.Drivers.SharedHash
import GraphDissect.CallGraph.Mutators
import GraphDissect.CallGraph.Representation
import GraphDissect.Analysis.DisplayRegions
import GraphDissect.Scheduler.ShellQuote
import GraphDissect.Library.Blocks
import GraphDissect.Fuzzing.WorkingInput
import GraphDissect.Fuzzing.Mangle
import GraphDissect.Fuzzing.MangleSafety
import GraphDissect.Fuzzing.MangleRuns
import GraphDissect.Fuzzing.DryRun
import GraphDissect.Fuzzing.DryRunFiles
import GraphDissect.Library.Refinement
import GraphDissect.Fuzzing.Target
import GraphDissect.Fuzzing.TargetRuns
import GraphDissect.Fuzzing.Feedback
import GraphDissect.Fuzzing.FeedbackRuns
import GraphDissect.Fuzzing.Dictionary
import GraphDissect.Fuzzing.Blocklist
import GraphDissect.Fuzzing.CmpFeedback
import GraphDissect.Drivers.SwitchSeeds
