import ClashSubParser.PermutedOutcome
import ClashSubParser.PositionOrder
import ClashSubParser.PolicyInvariant
import ClashSubParser.OptimisticLocking
import ClashSubParser.LineDocuments
import ClashSubParser.SnapshotConsistency
import ClashSubParser.DerivedNames
import ClashSubParser.CompatibleMode
import ClashSubParser.RiskAdmission
import ClashSubParser.SchedulerCancellation
import ClashSubParser.SchedulerDedupe
import ClashSubParser.SchedulerPriority
import ClashSubParser.RefreshFlags
import ClashSubParser.EntryOverrides
import ClashSubParser.PublicationRuns
import ClashSubParser.RunStates
import ClashSubParser.LeaseFencing
import ClashSubParser.ObservedRuns
import ClashSubParser.AdmissionOrder
import ClashSubParser.FilterNormalForm
import ClashSubParser.SafeFetch
import ClashSubParser.ObservationOrder
import ClashSubParser.EnabledScope
import ClashSubParser.SweepCoverage
import ClashSubParser.RuleOrder
import ClashSubParser.UnexecutedProbes
import ClashSubParser.BudgetReads
import ClashSubParser.ProviderURLs
import ClashSubParser.ProbeReport
