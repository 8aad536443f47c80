import RuleTrade.Properties.BoundedFeasible
import RuleTrade.Properties.CheckpointClosure
import RuleTrade.Properties.EventTruths
import RuleTrade.Properties.CrossSection
import RuleTrade.Properties.PolicyAllocation
import RuleTrade.Properties.RevisionChain
import RuleTrade.Properties.ComparisonAlignment
import RuleTrade.Properties.RemovalReferences
import RuleTrade.Properties.SubgroupRenaming
import RuleTrade.Properties.Soundness
import RuleTrade.Properties.Memoization
import RuleTrade.Properties.SelectionExecutors
import RuleTrade.Properties.RunStore
import RuleTrade.Properties.EditorSession
import RuleTrade.Properties.ConditionTruth
import RuleTrade.Properties.CompletedPeriods
import RuleTrade.Properties.BlockyProjection
import RuleTrade.Properties.MissingRows
import RuleTrade.Properties.HistoryWindow
import RuleTrade.Properties.TypedComparison
import RuleTrade.Properties.PlanNormalization
import RuleTrade.Properties.CooldownRefinement
import RuleTrade.Properties.Occurrences
import RuleTrade.Properties.RandomSample
import RuleTrade.Properties.TimestampOrder
import RuleTrade.Properties.ResolvableAllocation
import RuleTrade.Properties.EvidenceRoundTrip
import RuleTrade.Properties.StatementMoves
import RuleTrade.Properties.AuthoringController
import RuleTrade.Properties.IntentReadiness
import RuleTrade.Properties.VisualGraph
import RuleTrade.Properties.WorkingDraft
import RuleTrade.Properties.ResolvedPortfolio
import RuleTrade.Properties.SemanticIntents
import RuleTrade.Properties.SeedOrder
import RuleTrade.Editor.FlowRoutes
import RuleTrade.Properties.ResearchedValues
import RuleTrade.Properties.FlowOrder
import RuleTrade.Properties.ScriptAttribution
import RuleTrade.Properties.SemanticCoverage
import RuleTrade.Properties.LoweringMeaning
