import RuleTrade.Backend.Plan
import RuleTrade.Persistence.Runs

/-! The Run service: it stores a Run, executes it, and stores how that ended. -/

namespace RuleTrade

open Library

/-- A persisted source in the older or the current format. -/
inductive CanonicalSource (V1 V2 : Type) where
  | v1 (strategy : V1)
  | v2 (strategy : V2)

structure BacktestExecution (Result : Type) where
  result : Result
  decisionEvents : List CollectedDecisionEvent
  sourceComponentIds : List String

/-- Market data of a configuration: what there is, and the demand that it suffices. -/
structure MarketDataService (V1 Plan Config : Type) where
  preflight : V1 → Config → Except Raised PUnit
  preflightPlan : Plan → Config → Except Raised PUnit
  requireAvailable : V1 → Config → Except Raised PUnit
  requireAvailablePlan : Plan → Config → Except Raised PUnit

/-- The backtest service with its stages, each of which may raise. -/
structure BacktestService (V1 V2 Plan Config Payload Result : Type) where
  marketData : Option (MarketDataService V1 Plan Config)
  collectSemanticIssues : V1 → Except Raised (List SourceIssue)
  validateStrategyV2 : V2 → Except Raised (List SourceIssue)
  compileStrategyToLeanPlan : V1 → Except Raised Plan
  compileV2StrategyToLeanPlan : V2 → Except Raised Plan
  generateCsharp : Plan → Config → Except Raised String
  run : String → Config → Except Raised (String × Payload)
  normalizeLeanResult : Payload → Except Raised Result
  collectDecisionEvidence : String → Except Raised (List CollectedDecisionEvent)
  planSourceIds : Plan → List String
  graphComponentIds : V1 → List String

namespace BacktestService

variable {V1 V2 Plan Config Payload Result : Type}
variable (service : BacktestService V1 V2 Plan Config Payload Result)

def executePlan (plan : Plan) (config : Config) : Except Raised (BacktestExecution Result) := do
  let generated ← service.generateCsharp plan config
  let (logText, payload) ← service.run generated config
  let result ← service.normalizeLeanResult payload
  let events ← service.collectDecisionEvidence logText
  .ok ⟨result, events, service.planSourceIds plan⟩

/-- Refuse a source with semantic issues. -/
def requireValid (issues : List SourceIssue) : Except Raised PUnit :=
  if issues = [] then .ok ⟨⟩ else .error (.backtest (.invalidStrategy issues))

/-- What a lowering refuses is unsupported; other exceptions pass. -/
def asUnsupported : CanonicalSource V1 V2 → Raised → Raised
  | .v2 _, .v2Lowering message => .backtest (.unsupportedStrategy message)
  | .v1 _, .leanLowering message => .backtest (.unsupportedStrategy message)
  | _, raised => raised

def issues : CanonicalSource V1 V2 → Except Raised (List SourceIssue)
  | .v1 strategy => service.collectSemanticIssues strategy
  | .v2 strategy => service.validateStrategyV2 strategy

def compile : CanonicalSource V1 V2 → Except Raised Plan
  | .v1 strategy => service.compileStrategyToLeanPlan strategy
  | .v2 strategy => service.compileV2StrategyToLeanPlan strategy

/-- The demand for market data, when there is a market data service. -/
def requireData (source : CanonicalSource V1 V2) (plan : Plan) (config : Config) :
    Except Raised PUnit :=
  match service.marketData, source with
  | none, _ => .ok ⟨⟩
  | some data, .v1 strategy => data.requireAvailable strategy config
  | some data, .v2 _ => data.requireAvailablePlan plan config

/-- Execute a source once and collect its evidence, in either format. -/
def executeWithEvidence (source : CanonicalSource V1 V2) (config : Config) :
    Except Raised (BacktestExecution Result) := do
  let issues ← service.issues source
  requireValid issues
  let plan ← (service.compile source).mapError (asUnsupported source)
  service.requireData source plan config
  service.executePlan plan config

/-- Look at the market data before there is a Run. A refused lowering is not a
market-data fact. -/
def preflight (source : CanonicalSource V1 V2) (config : Config) : Except Raised PUnit :=
  let outcome : Except Raised PUnit :=
    match service.marketData, source with
    | none, _ => .ok ⟨⟩
    | some data, .v1 strategy => data.preflight strategy config
    | some data, .v2 strategy => do
        let plan ← service.compileV2StrategyToLeanPlan strategy
        data.preflightPlan plan config
  match outcome with
  | .error (.v2Lowering _) => .ok ⟨⟩
  | other => other

end BacktestService

section Errors

def BacktestError.public : BacktestError → BacktestRunError
  | .runtimeUnavailable message => ⟨"runtime_unavailable", message⟩
  | .unsupportedStrategy message => ⟨"unsupported_strategy", message⟩
  | .invalidStrategy _ => ⟨"invalid_strategy_source", "Stored Strategy source failed validation."⟩
  | .marketDataUnavailable message => ⟨"market_data_unavailable", message⟩
  | .executionFailed _ | .malformedResult _ => ⟨"execution_failure", "Backtest execution failed."⟩

/-- The error that a failed Run shows; `none` for an exception that is not caught. -/
def Raised.publicError : Raised → Option BacktestRunError
  | .backtest error => some error.public
  | .decisionEvidence _ =>
      some ⟨"evidence_collection_failure", "Backtest Decision Evidence could not be recorded."⟩
  | _ => none

end Errors

abbrev RunService (Config Result α : Type) :=
  ExceptT Raised (StateM (RunDatabase Config Result)) α

/-- Outcome of a service on the Run tables, and what it leaves there. -/
def RunService.serve {Config Result α : Type} (task : RunService Config Result α)
    (db : RunDatabase Config Result) : Except Raised α × RunDatabase Config Result :=
  task.run db

namespace RunService

variable {Config Result α β : Type} {task : RunService Config Result α}
variable {db changed : RunDatabase Config Result}

theorem serve_bind {f : α → RunService Config Result β} :
    (task >>= f).serve db =
      match task.serve db with
      | (.ok value, changed) => (f value).serve changed
      | (.error raised, changed) => (.error raised, changed) := by
  change (StateT.bind task.run (ExceptT.bindCont f)) db = _
  unfold serve StateT.bind
  rcases task.run db with ⟨outcome, changed⟩
  cases outcome <;> rfl

theorem serve_bind_ok {f : α → RunService Config Result β} {value : α}
    (h : task.serve db = (.ok value, changed)) : (task >>= f).serve db = (f value).serve changed := by
  rw [serve_bind, h]

theorem serve_bind_error {f : α → RunService Config Result β} {raised : Raised}
    (h : task.serve db = (.error raised, changed)) :
    (task >>= f).serve db = (.error raised, changed) := by
  rw [serve_bind, h]

theorem serve_tryCatch {handle : Raised → RunService Config Result α} :
    (tryCatch task handle).serve db =
      match task.serve db with
      | (.ok value, changed) => (.ok value, changed)
      | (.error raised, changed) => (handle raised).serve changed := by
  unfold serve
  change (ExceptT.run (ExceptT.tryCatch task handle)) db = _
  unfold ExceptT.tryCatch ExceptT.run ExceptT.mk
  change (StateT.bind _ _) db = _
  unfold StateT.bind
  rcases task db with ⟨outcome, changed⟩
  cases outcome <;> rfl

theorem serve_liftExcept (outcome : Except Raised α) :
    (liftExcept outcome : RunService Config Result α).serve db = (outcome, db) := by
  cases outcome <;> rfl

end RunService

/-- What a Run is made of. -/
structure RunSource (V1 V2 Config : Type) where
  revisionId : String
  candidateId : Option String
  canonical : CanonicalSource V1 V2
  runConfig : Config

/-- A saved Revision by its id, or a Candidate with its source. -/
inductive RunRequest (V1 V2 RawConfig Config : Type) where
  | revision (revisionId : String) (config : RawConfig)
  | candidate (candidateId baseRevisionId : String) (canonical : CanonicalSource V1 V2)
      (config : Config)

structure RunClock where
  createdAt : String
  startedAt : String
  completedAt : String
  failedAt : String

/-- The Run service with its clock, its next id, and the Revisions it reads. -/
structure BacktestRunService (V1 V2 Plan RawConfig Config Payload Result : Type) where
  executor : BacktestService V1 V2 Plan Config Payload Result
  getRevisionById : String → Except Raised (CanonicalSource V1 V2)
  validateConfig : RawConfig → Except Raised Config
  newId : String
  clock : RunClock

namespace BacktestRunService

open SQLiteBacktestRunRepository

variable {V1 V2 Plan RawConfig Config Payload Result : Type}

/-- One transaction; storage itself does not fail here. -/
def runTransaction {ρ : Type} (body : RunTransaction Config Result ρ ρ) : RunService Config Result ρ :=
  ExceptT.mk (fun db => body.transact (.persistence "storage") none db)

theorem serve_runTransaction {ρ : Type} {body : RunTransaction Config Result ρ ρ}
    {db : RunDatabase Config Result} :
    (runTransaction body).serve db = body.transact (.persistence "storage") none db := rfl

variable (service : BacktestRunService V1 V2 Plan RawConfig Config Payload Result)

/-- Components that the evidence of a source may name. -/
def knownComponents (source : CanonicalSource V1 V2) (execution : BacktestExecution Result) :
    List String :=
  match source with
  | .v1 strategy => service.executor.graphComponentIds strategy
  | .v2 _ => execution.sourceComponentIds

def unknownProvenance (source : CanonicalSource V1 V2) (execution : BacktestExecution Result) :
    List String :=
  sortedSet (((execution.decisionEvents.flatMap CollectedDecisionEvent.sourceComponents).map
    SourceComponentRef.componentId).filter (fun id =>
      id ∉ service.knownComponents source execution))

/-- Evidence is there, and names only components of the source. -/
def checkEvidence (source : CanonicalSource V1 V2) (execution : BacktestExecution Result) :
    Except Raised (BacktestExecution Result) :=
  if execution.decisionEvents = [] then
    .error (.decisionEvidence "Successful execution emitted no Decision Evidence.")
  else if service.unknownProvenance source execution ≠ [] then
    .error (.decisionEvidence ("Decision Evidence referenced unknown source components: " ++
      ", ".intercalate (service.unknownProvenance source execution)))
  else .ok execution

def executeChecked (source : CanonicalSource V1 V2) (config : Config) :
    Except Raised (BacktestExecution Result) := do
  let execution ← service.executor.executeWithEvidence source config
  service.checkEvidence source execution

/-- Record a failure, or pass on what is not caught. -/
def recordFailure (raised : Raised) : RunService Config Result (BacktestRunRecord Config Result) :=
  match raised.publicError with
  | none => throw raised
  | some error => runTransaction (completeFailed service.newId error service.clock.completedAt)

/-- Store a success; when its evidence cannot be stored, store that as a failure. -/
def recordSuccess (execution : BacktestExecution Result) :
    RunService Config Result (BacktestRunRecord Config Result) :=
  tryCatch (runTransaction (completeSucceededWithEvidence service.newId execution.result
      service.clock.completedAt execution.decisionEvents)) (fun raised =>
    match raised with
    | .persistence _ =>
        tryCatch (runTransaction (completeFailed service.newId
            ⟨"evidence_persistence_failure", "Backtest Decision Evidence could not be persisted."⟩
            service.clock.failedAt)) (fun second =>
          match second with
          | .persistence _ => throw raised
          | other => throw other)
    | other => throw other)

/-- Store how an execution came out. -/
def conclude : Except Raised (BacktestExecution Result) →
    RunService Config Result (BacktestRunRecord Config Result)
  | .error raised => service.recordFailure raised
  | .ok execution => service.recordSuccess execution

def newRun (source : RunSource V1 V2 Config) : BacktestRunRecord Config Result where
  id := service.newId
  revisionId := source.revisionId
  candidateId := source.candidateId
  status := .pending
  runConfig := source.runConfig
  createdAt := service.clock.createdAt

def createAndExecuteSource (source : RunSource V1 V2 Config) :
    RunService Config Result (BacktestRunRecord Config Result) := do
  liftExcept (service.executor.preflight source.canonical source.runConfig)
  runTransaction (createRun (service.newRun source))
  let _running ← runTransaction (markRunning service.newId service.clock.startedAt)
  service.conclude (service.executeChecked source.canonical source.runConfig)

/-- The source of a requested Run. -/
def sourceOf : RunRequest V1 V2 RawConfig Config → Except Raised (RunSource V1 V2 Config)
  | .revision revisionId raw => do
      let config ← service.validateConfig raw
      let canonical ← service.getRevisionById revisionId
      .ok ⟨revisionId, none, canonical, config⟩
  | .candidate candidateId baseRevisionId canonical config =>
      .ok ⟨baseRevisionId, some candidateId, canonical, config⟩

/-- Create a Run of a Revision or a Candidate and execute it. -/
def createAndExecute (request : RunRequest V1 V2 RawConfig Config) :
    RunService Config Result (BacktestRunRecord Config Result) := do
  let source ← liftExcept (service.sourceOf request)
  service.createAndExecuteSource source

end BacktestRunService

end RuleTrade
