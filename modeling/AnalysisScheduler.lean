import AnalysisScheduler.Graph.Description
import AnalysisScheduler.Report.FindingJson
import AnalysisScheduler.Run.Run
import AnalysisScheduler.Settings.PoolSettings
import AnalysisScheduler.Proofs.Run.Cascade
import AnalysisScheduler.Proofs.Run.Course
import AnalysisScheduler.Proofs.Run.Isolation
import AnalysisScheduler.Proofs.Roster.Exploration
import AnalysisScheduler.Proofs.Roster.Failure
import AnalysisScheduler.Proofs.Graph.Resolution
import AnalysisScheduler.Proofs.Graph.EdgeList
import AnalysisScheduler.Proofs.Run.Likeness
import AnalysisScheduler.Proofs.Run.Offers
import AnalysisScheduler.Proofs.Run.Causality
import AnalysisScheduler.Proofs.Graph.Obstacles
import AnalysisScheduler.Proofs.Report.FindingJson
import AnalysisScheduler.Proofs.Run.Executor
import AnalysisScheduler.Proofs.Run.Termination
import AnalysisScheduler.Proofs.Graph.Trace
import AnalysisScheduler.Proofs.Graph.Circularity
import AnalysisScheduler.Proofs.Graph.Chronology
import AnalysisScheduler.Proofs.Bear.Tasks
import AnalysisScheduler.Proofs.Text.Blank
import AnalysisScheduler.Proofs.Text.Lowercase
import AnalysisScheduler.Proofs.Settings.Section
import AnalysisScheduler.Proofs.Settings.OptionValue
import AnalysisScheduler.Proofs.Settings.Options
import AnalysisScheduler.Proofs.Settings.TypedOptions
import AnalysisScheduler.Proofs.Settings.Boolean
import AnalysisScheduler.Proofs.Settings.PoolSettings
import AnalysisScheduler.Proofs.Run.Bookkeeping
