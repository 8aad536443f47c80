import RuleTrade.Backend.StaticLowering

/-! Lowering of Programs of Events and one guarded policy. Values, conditions and
actions are those of the bounded temporal profiles. -/

namespace RuleTrade

open Library

section Conditions

/-- Asset whose adjusted close a node observes. -/
def DailyValueNode.adjustedCloseAsset : DailyValueNode → Option String
  | .observe attrs .close .adjusted =>
      if attrs.subjectKind = some .asset then attrs.subjectId.filter (fun id => id ≠ "") else none
  | _ => none

def refuseTemporalValue (value : ValueExpression) : Except CompileError LeanTemporalValue :=
  .error (.refused ("temporal profile cannot lower Value " ++ quoted value.kindText))

def temporalValue : ValueExpression → Except CompileError LeanTemporalValue
  | .daily (.literal attrs value _ _ _) => .ok ⟨attrs.semanticId, .literal value⟩
  | .daily node =>
      match node.adjustedCloseAsset with
      | some asset => .ok ⟨node.semanticId, .currentPrice asset⟩
      | none => refuseTemporalValue (.daily node)
  | .clockedValue id source clockId =>
      match source.adjustedCloseAsset with
      | some asset => .ok ⟨id, .completedWeeklyPrice asset clockId⟩
      | none => refuseTemporalValue (.clockedValue id source clockId)
  | .literal id value _ _ _ => .ok ⟨id, .literal value⟩
  | .rememberedValue id memoryId _ _ _ => .ok ⟨id, .remembered memoryId⟩
  | .barsSinceEvent id eventId => .ok ⟨id, .barsSinceEvent eventId⟩
  | value => refuseTemporalValue value

/-- A comparison of the source. -/
structure SourceComparison where
  operator : ComparisonOperator
  left : ValueExpression
  right : ValueExpression

/-- At most one child of each kind a temporal condition knows. -/
structure TemporalParts where
  state : Option (String × String) := none
  window : Option (String × EventWindowRelation) := none
  comparison : Option SourceComparison := none

def TemporalParts.place (parts : TemporalParts) : Condition → Except CompileError TemporalParts
  | .stateEquals _ key expected =>
      if parts.state.isNone then .ok { parts with state := some (key, expected) } else refuse
  | .eventWindow _ eventId relation =>
      if parts.window.isNone then .ok { parts with window := some (eventId, relation) } else refuse
  | .comparison _ operator left right =>
      if parts.comparison.isNone then
        .ok { parts with comparison := some ⟨operator, left, right⟩ }
      else refuse
  | _ => refuse
where
  refuse : Except CompileError TemporalParts :=
    .error (.refused ("temporal event profile requires at most one State guard, one Event window, " ++
      "and one Comparison"))

/-- Children of a conjunction, or the condition by itself. -/
def Condition.conjuncts : Condition → List Condition
  | .booleanGroup _ .all children => children
  | condition => [condition]

/-- Window of a temporal condition, which only `within` has. -/
def temporalWindow : Option (String × EventWindowRelation) →
    Except CompileError (Option (String × Nat))
  | none => .ok none
  | some (eventId, .within observations) => .ok (some (eventId, observations))
  | some _ =>
      .error (.refused "temporal LEAN profile currently lowers only within Event windows")

def temporalCondition (condition : Condition) : Except CompileError LeanTemporalCondition := do
  let parts ← condition.conjuncts.foldlM TemporalParts.place {}
  match parts.comparison with
  | none => .error (.refused "temporal event profile requires one typed Comparison")
  | some comparison => do
      let window ← temporalWindow parts.window
      let left ← temporalValue comparison.left
      let right ← temporalValue comparison.right
      .ok {
        semanticId := condition.semanticId
        operator := comparison.operator
        left := left
        right := right
        requiredState := parts.state
        afterEvent := window }

end Conditions

section Events

def ProgramStatement.kindText : ProgramStatement → String
  | .select _ => "select"
  | .allocate _ => "allocate"
  | .control _ _ _ => "control"
  | .onEvent _ _ _ => "on_event"
  | .transition _ _ => "transition"
  | .rememberValue _ => "remember_value"
  | .guardedAllocation _ => "guarded_allocation"
  | .unresolved _ => "unresolved"

def temporalAction : ProgramStatement → Except CompileError LeanTemporalAction
  | .rememberValue s => do
      let value ← temporalValue s.value
      .ok (.remember s.semanticId s.memoryId value)
  | .transition semanticId t =>
      match t.when with
      | .stateEquals _ key expected =>
          if key ≠ t.stateKey ∨ some expected ≠ t.fromValue then
            .error (.refused "temporal transition State guard must match from_value")
          else .ok (.transition semanticId t.stateKey t.fromValue t.toValue)
      | _ => .error (.refused "temporal transition action requires a State equality guard")
  | statement => .error (.refused ("unsupported temporal Event action: " ++ statement.kindText))

def temporalTrigger : EventTrigger → Except CompileError (LeanTemporalTrigger × Condition)
  | .on .risingEdge condition => .ok (.risingEdge, condition)
  | .on .whileTrue condition => .ok (.whileTrue, condition)
  | .on .crossesAbove condition => .ok (.crossesAbove, condition)
  | .on .crossesBelow condition => .ok (.crossesBelow, condition)
  | trigger => .error (.refused ("unsupported temporal Event trigger: " ++ trigger.text))

def temporalOccurrence : Occurrence → Except CompileError LeanTemporalOccurrence
  | .every => .ok .every
  | .first => .ok .first
  | occurrence =>
      .error (.refused ("unsupported temporal Event occurrence: " ++ occurrence.text))

/-- Asset a lowered value is read of. -/
def LeanTemporalValueKind.asset? : LeanTemporalValueKind → Option String
  | .currentPrice asset | .completedWeeklyPrice asset _ => some asset
  | .literal _ | .remembered _ | .barsSinceEvent _ => none

def LeanTemporalValueKind.isWeekly : LeanTemporalValueKind → Bool
  | .completedWeeklyPrice _ _ => true
  | _ => false

/-- Values a condition compares. -/
def LeanTemporalCondition.values (condition : LeanTemporalCondition) :
    List LeanTemporalValueKind :=
  [condition.left.kind, condition.right.kind]

variable (program : SemanticProgram)

/-- The clock of a completed-week value of an Event is weekly and in the zone of
the Event's clock. -/
def checkWeekly (eventClock : ProgramClock) : LeanTemporalValueKind → Except CompileError PUnit
  | .completedWeeklyPrice _ clockId =>
      match (program.clock? clockId).filter (fun clock => clock.timeframe = .weekly) with
      | none =>
          .error (.refused "multi-clock temporal profile requires a completed weekly close clock")
      | some weekly =>
          if weekly.timezone ≠ eventClock.timezone ∨ weekly.timezone ≠ "America/New_York" then
            .error (.refused "multi-clock temporal profile requires aligned America/New_York clocks")
          else .ok ()
  | _ => .ok ()

def temporalEvent (statementId : String) (event : EventDefinition)
    (statements : List ProgramStatement) : Except CompileError LeanTemporalEvent :=
  match (program.clock? event.clockId).filter (fun clock => clock.timeframe = .daily) with
  | none => .error (.refused "event-state-daily@1 requires a completed daily close clock")
  | some clock => do
      let (trigger, source) ← temporalTrigger event.trigger
      let occurrence ← temporalOccurrence event.occurrence
      let condition ← temporalCondition source
      let _ ← condition.values.mapM (checkWeekly program clock)
      let actions ← statements.mapM temporalAction
      .ok {
        semanticId := event.semanticId
        statementId := statementId
        clockId := event.clockId
        trigger := trigger
        occurrence := occurrence
        condition := condition
        actions := actions }

end Events

section Policy

def fixedPolicyTarget (a : AllocationStatement) (semanticId stateKey stateValue : String) :
    Except CompileError LeanTemporalPolicyTarget :=
  match a.legs with
  | [leg] =>
      if a.method ≠ .fixed ∨ leg.weight ≠ some 1 then refuse
      else
        match leg.target.kind with
        | .asset ref => .ok ⟨semanticId, stateKey, stateValue, .asset ref⟩
        | .cash => .ok ⟨semanticId, stateKey, stateValue, .cash⟩
        | .retain => .ok ⟨semanticId, stateKey, stateValue, .retain⟩
        | .selection _ | .group _ =>
            .error (.refused "temporal policy target must be asset, cash, or retain")
  | _ => refuse
where
  refuse : Except CompileError LeanTemporalPolicyTarget :=
    .error (.refused "temporal policy requires a single fixed 100% target")

/-- Selection semantic ids by output. -/
abbrev SelectionOutputs := Dict String String

def temporalLeg (outputs : SelectionOutputs) (leg : AllocationLeg) :
    Except CompileError LeanTemporalAllocationLeg :=
  match leg.target.kind with
  | .selection ref =>
      match outputs.get? ref with
      | none => .error (.refused ("policy references unknown Selection output " ++ quoted ref))
      | some selectionId => .ok ⟨leg.semanticId, .selection selectionId, leg.weight⟩
  | .asset ref => .ok ⟨leg.semanticId, .asset ref, leg.weight⟩
  | .cash => .ok ⟨leg.semanticId, .cash, leg.weight⟩
  | .retain => .ok ⟨leg.semanticId, .retain, leg.weight⟩
  | .group _ =>
      .error (.refused "composable policy supports asset, Selection, cash, and retain targets")

def composablePolicyTarget (outputs : SelectionOutputs) (a : AllocationStatement)
    (semanticId stateKey stateValue : String) : Except CompileError LeanTemporalPolicyTarget :=
  if a.method = .inverseVolatility then
    .error (.refused ("composable policy cannot lower " ++ quoted a.method.text ++ " allocation"))
  else do
    let legs ← a.legs.mapM (temporalLeg outputs)
    .ok ⟨semanticId, stateKey, stateValue, .portfolio a.method legs⟩

/-- Selections make every policy target composable. -/
def policyTarget (outputs : SelectionOutputs) (a : AllocationStatement)
    (semanticId stateKey stateValue : String) : Except CompileError LeanTemporalPolicyTarget :=
  if outputs.isEmpty then fixedPolicyTarget a semanticId stateKey stateValue
  else composablePolicyTarget outputs a semanticId stateKey stateValue

/-- Targets of the overrides, which all test the state of one key. -/
def overrideTargets (outputs : SelectionOutputs) :
    List OverrideRule → Option String → Except CompileError (List LeanTemporalPolicyTarget)
  | [], _ => .ok []
  | rule :: rest, axis =>
      match rule.when with
      | .stateEquals _ key expected =>
          if axis.getD key ≠ key then
            .error (.refused "composable temporal policy requires one explicit State axis")
          else do
            let target ← policyTarget outputs rule.action rule.semanticId key expected
            let targets ← overrideTargets outputs rest (some key)
            .ok (target :: targets)
      | _ =>
          .error (.refused "temporal policy override requires a State equality condition")

/-- Rules of a policy, by priority, and the primary target under the state `*`. -/
def policyTargets (outputs : SelectionOutputs) (policy : GuardedAllocationStatement) :
    Except CompileError (List LeanTemporalPolicyTarget) :=
  if policy.guard.isSome ∨ policy.fallback.isSome ∨ policy.overrides = [] then
    .error (.refused "temporal policy requires State overrides and a primary target")
  else do
    let targets ← overrideTargets outputs
      (Sequence.sortByDescending OverrideRule.priority policy.overrides) none
    let axis := (targets.head?.map LeanTemporalPolicyTarget.stateKey).getD ""
    let primary ← policyTarget outputs policy.primary policy.primary.semanticId axis "*"
    .ok (targets ++ [primary])

end Policy

section Isolation

/-- Names under which compiled strategies are known. -/
structure PlanIdentities where
  strategy : CanonicalStrategy → String
  checkpoint : SemanticProgram → Dict String String → LeanTemporalProfile → String

theorem noBounds_range : inUnitInterval none = true ∧ inUnitInterval none = true := ⟨rfl, rfl⟩

theorem noBounds_ordered :
    (none : Option ℚ).all (fun low => (none : Option ℚ).all (fun high => low ≤ high)) = true := rfl

/-- Allocation that stands in for the policy when a Selection is compiled alone. -/
def isolatedAllocation (statement : SelectionStatement) (method : AllocationMethod)
    (hMethod : method ≠ .fixed) : AllocationStatement where
  semanticId := statement.semanticId ++ "-execution-allocation"
  method := method
  clockId := statement.clockId
  legs := [{
    semanticId := statement.semanticId ++ "-execution-leg"
    target := {
      semanticId := statement.semanticId ++ "-execution-target"
      kind := .selection statement.outputId } }]
  legs_range := ⟨le_rfl, by simp⟩
  weights_range := rfl
  retain_sole := by simp
  fixed_weights := fun h => absurd h hMethod
  derived_weights := fun _ => rfl
  bounds_range := noBounds_range
  bounds_ordered := noBounds_ordered
  score_target := fun _ => rfl
  plain_bounds := fun _ => ⟨rfl, rfl, rfl⟩

/-- The first policy target that reads a Selection decides how it is weighted. -/
def readsProportionally (targets : List LeanTemporalPolicyTarget) (selectionId : String) : Bool :=
  let methods := targets.flatMap (fun target =>
    match target.target with
    | .portfolio method legs =>
        (legs.filter (fun leg => leg.target = .selection selectionId)).map (fun _ => method)
    | _ => [])
  methods.head? = some .proportionalScore

/-- The Program of one Selection, without its fallback, and its allocation. -/
def isolatedProgram (program : SemanticProgram) (statement : SelectionStatement)
    (proportional : Bool) : SemanticProgram :=
  { program with
    statements := [
      .select { statement with selection := { statement.selection with fallbackAsset := none } },
      .allocate (if proportional then isolatedAllocation statement .proportionalScore (by decide)
        else isolatedAllocation statement .equal (by decide))] }

def CanonicalStrategy.withProgram (strategy : CanonicalStrategy) (program : SemanticProgram) :
    CanonicalStrategy :=
  { strategy with
    program := some program
    has_semantics := .inr rfl }

/-- Refusal of a strategy that does not validate. -/
def checkStrategy (strategy : CanonicalStrategy) : Except CompileError PUnit :=
  let diagnostics := validateStrategyV2 strategy
  if diagnostics = [] then .ok ()
  else .error (.refused ("v2 semantic validation failed: " ++
    String.intercalate "; " (diagnostics.map (fun item => item.path ++ ": " ++ item.code))))

/-- Sleeves of a compiled Selection take its name and its fallback. -/
def renameSleeve (s : Selection) (selectionId : String) (sleeve : LeanTargetSleeve) :
    LeanTargetSleeve :=
  if sleeve.selectionId = some selectionId then
    { sleeve with
      id := s.semanticId ++ "-sleeve"
      selectionId := some s.semanticId
      fallbackSymbols := (s.fallbackAsset.map (fun asset => [asset])).getD sleeve.fallbackSymbols }
  else sleeve

/-- Plan of one Selection of a temporal Program. The allocation made for it is
checked like any other, so its name must not be too long. -/
def isolatedPlan (ids : PlanIdentities) (strategy : CanonicalStrategy) (program : SemanticProgram)
    (targets : List LeanTemporalPolicyTarget) (statement : SelectionStatement) :
    Except CompileError LeanPlan :=
  let isolated := isolatedProgram program statement
    (readsProportionally targets statement.selection.semanticId)
  let isolatedStrategy := strategy.withProgram isolated
  if 100 < (statement.semanticId ++ "-execution-allocation").length then
    .error (.invalid "String should have at most 100 characters")
  else do
    checkStrategy isolatedStrategy
    match ← compileStaticProgram strategy.definitions isolated (ids.strategy isolatedStrategy) with
    | none => .error .assertionFailed
    | some plan =>
        match plan.momentumSelections with
        | [selection] =>
            .ok { plan with
              momentumSelections := [{ selection with id := statement.selection.semanticId }]
              targetSleeves :=
                plan.targetSleeves.map (renameSleeve statement.selection selection.id) }
        | _ =>
            .error (.refused "composable Selection must lower to one typed ranking node")

end Isolation

section Compile

/-- Assets of the targets of a policy. -/
def LeanTemporalPolicyTarget.assets (target : LeanTemporalPolicyTarget) : List String :=
  match target.target with
  | .asset symbol => [symbol]
  | .cash | .retain => []
  | .portfolio _ legs => legs.filterMap (fun leg =>
      match leg.target with
      | .asset ref => some ref
      | _ => none)

def LeanTemporalEvent.assets (event : LeanTemporalEvent) : List String :=
  event.condition.values.filterMap LeanTemporalValueKind.asset?

/-- Assets named by the Events, the policy and the fallbacks; the universes of
the Selections when nothing names one. -/
def temporalSymbols (definitions : StrategyDefinitions) (events : List LeanTemporalEvent)
    (targets : List LeanTemporalPolicyTarget) (selections : List SelectionStatement) :
    List String :=
  let named := events.flatMap LeanTemporalEvent.assets ++
    targets.flatMap LeanTemporalPolicyTarget.assets ++
    selections.filterMap (fun s => s.selection.fallbackAsset)
  if named = [] then
    selections.flatMap (fun s => definitions.firstGroupAssets s.selection.universeId)
  else named

/-- Asset whose bars make the boundaries: the first one an Event observes. -/
def anchorSymbol (events : List LeanTemporalEvent) (symbols : List String) : String :=
  (events.flatMap LeanTemporalEvent.assets).headD ((sortedSet symbols).headD "")

def ProgramStatement.event? : ProgramStatement →
    Option (String × EventDefinition × List ProgramStatement)
  | .onEvent semanticId event statements => some (semanticId, event, statements)
  | _ => none

def ProgramStatement.policy? : ProgramStatement → Option GuardedAllocationStatement
  | .guardedAllocation s => some s
  | _ => none

def observesWeekly (events : List LeanTemporalEvent) : Bool :=
  events.any (fun event => event.condition.values.any LeanTemporalValueKind.isWeekly)

def eventProfile (events : List LeanTemporalEvent) : LeanTemporalProfile :=
  if observesWeekly events then .eventStateMulticlock else .eventStateDaily

/-- Clock the plan is named by. -/
def temporalClock (program : SemanticProgram) (events : List LeanTemporalEvent)
    (selections : List SelectionStatement) : Except CompileError String :=
  match events, selections with
  | event :: _, _ => .ok event.clockId
  | [], statement :: _ => .ok (statement.clockId.getD program.firstClockId)
  | [], [] => .error .indexOutOfRange

/-- Checks of a Program with Events or a policy. -/
def compileTemporal (ids : PlanIdentities) (strategy : CanonicalStrategy)
    (program : SemanticProgram) : Except CompileError LeanPlan := do
  let sourceEvents := program.statements.filterMap ProgramStatement.event?
  let selections := program.statements.filterMap ProgramStatement.selection?
  match program.statements.filterMap ProgramStatement.policy? with
  | [policy] =>
      if sourceEvents.length + selections.length + 1 ≠ program.statements.length then refuseShape
      else do
        let events ← sourceEvents.mapM (fun source =>
          temporalEvent program source.1 source.2.1 source.2.2)
        let outputs := Dict.ofList
          (selections.map (fun s => (s.outputId, s.selection.semanticId)))
        let targets ← policyTargets outputs policy
        let symbols := temporalSymbols strategy.definitions events targets selections
        if symbols = [] then
          .error (.refused "event-state-daily@1 currently requires one adjusted-close asset")
        else do
          let plans ← selections.mapM (isolatedPlan ids strategy program targets)
          let subscriptions := (symbols ++ plans.flatMap LeanPlan.subscriptions).dedup
          let clockId ← temporalClock program events selections
          normalizeLeanPlan {
            strategyIdentity := ids.strategy strategy
            subscriptions := subscriptions
            targetSleeves := plans.flatMap LeanPlan.targetSleeves
            rebalances := []
            momentumSelections := plans.flatMap LeanPlan.momentumSelections
            temporalProgram := some {
              profile := if selections = [] then eventProfile events
                else .composableSemanticExecution
              semanticId := program.semanticId
              checkpointIdentity :=
                ids.checkpoint program strategy.operatorLock (eventProfile events)
              operatorVersions := Sequence.sortBy Prod.fst strategy.operatorLock.entries
              clockId := clockId
              anchorSymbol := anchorSymbol events symbols
              initialState := Sequence.sortBy Prod.fst program.initialState.entries
              events := events
              policyStatementId := policy.semanticId
              policyTargets := targets
              assetUniverse := sortedSet subscriptions } }
  | _ => refuseShape
where
  refuseShape : Except CompileError LeanPlan :=
    .error (.refused ("temporal execution requires Selections, ordered Events, and one guarded " ++
      "policy"))

/-- Lower a Program of Events and a policy. Others are left to another lowering. -/
def compileTemporalProgram (ids : PlanIdentities) (strategy : CanonicalStrategy)
    (program : SemanticProgram) : Except CompileError (Option LeanPlan) :=
  if program.statements.filterMap ProgramStatement.event? = [] ∧
      program.statements.filterMap ProgramStatement.policy? = [] then .ok none
  else (compileTemporal ids strategy program).map some

end Compile

end RuleTrade
