import RuleTrade.Strategy.Canonical
import RuleTrade.Execution.Runtime

/-! The executor of the older single Selection. It scores and ranks members by
itself, next to the Selection statement of a Program. -/

namespace RuleTrade

open Library

inductive V2ExecutionError where
  | compatibilitySelectionMissing
  | invalidStrategy (issues : List (String × String))
  | selectionUniverseUnavailable
  | selectionValueMustBeCandidateScalar
  | legacyValueNotSupported
  | unsupportedCondition
  | explicitEmptyTruthPolicyRequired
  | unknownTruthOperator
  | daily (error : DailyValueError)
  deriving DecidableEq

structure ValueObservationEvidence where
  semanticId : String
  candidate : Option String
  value : Option ℚ
  reason : Option String
  observedAt : CalendarDate
  expressionHash : ContentHash
  deriving DecidableEq

structure ComparisonEvidenceV2 where
  semanticId : String
  candidate : Option String
  operator : ComparisonOperator
  left : ValueObservationEvidence
  right : ValueObservationEvidence
  outcome : Truth
  reason : Option String
  deriving DecidableEq

structure SelectionEvidenceV2 where
  semanticId : String
  universeId : String
  requestedMembers : List String
  eligibleMembers : List String
  unknownMembers : List String
  rankedMembers : List String
  selectedMembers : List String
  shortagePolicy : ShortagePolicy
  fallbackAsset : Option String
  fallbackUsed : Bool
  comparisons : List ComparisonEvidenceV2
  rankingObservations : List ValueObservationEvidence

structure SelectionExecutionV2 where
  selectedAssets : List String
  complete : Bool
  evidence : SelectionEvidenceV2

section Truths

structure DailyTruthResult where
  axes : List Axis
  values : Dict (List AxisKey) Truth
  reasons : Dict (List AxisKey) (Option String)

/-- Keys of an axis, as they stand in the cells of the left result. -/
def keysForStatic (axis : Axis) (left : DailyValueResult) : Except DailyValueError (List AxisKey) :=
  left.cells.keys.mapM (fun key =>
    let found := if axis.name = .time ∧ left.axes.length ≠ 1 then key.getLast? else key.head?
    match found with
    | none => .error .indexOutOfRange
    | some key => .ok key)

/-- Truth of a comparison at every coordinate both sides range over. -/
def compareDailyValues (left right : DailyValueResult) (operator : ComparisonOperator) :
    Except DailyValueError DailyTruthResult := do
  let axes ← (requireCompatibleValues left.semanticType right.semanticType).mapError .semantic
  let keys ← axes.mapM (fun axis => keysForStatic axis left)
  (Sequence.product keys).foldlM (fun truths coordinate =>
    match left.cells.get? (project axes left.axes coordinate),
        right.cells.get? (project axes right.axes coordinate) with
    | some a, some b => .ok {
        truths with
        values := truths.values.set coordinate (comparisonTruth operator a.value b.value)
        reasons := truths.reasons.set coordinate
          (if a.value.isSome ∧ b.value.isSome then none else a.reason.or b.reason) }
    | _, _ => .error .cellMissing) ⟨axes, Dict.empty, Dict.empty⟩

def combineTruth (kind : GroupKind) (values : List Truth) : Except V2ExecutionError Truth :=
  if values = [] then .error .explicitEmptyTruthPolicyRequired
  else match kind with
    | .all => .ok (Truth.all values)
    | .any => .ok (Truth.any values)

end Truths

namespace CompatibilitySelection

section Members

/-- Members of the universe: those the snapshot pins, else those the definitions
list. -/
def members (strategy : CanonicalStrategy) (s : Selection) (snapshot : DailyMarketSnapshot) :
    Except V2ExecutionError (List String) :=
  match snapshot.domains.get? s.universeId with
  | some members => .ok members
  | none =>
      let group := strategy.definitions.groups.find? (fun group => group.id = s.universeId)
      let assetSetId := (group.map Group.assetSetRef).getD s.universeId
      match strategy.definitions.assetSets.find? (fun set => set.id = assetSetId) with
      | none => .error .selectionUniverseUnavailable
      | some set => .ok set.assets

end Members

section Evaluation

variable (ctx : DecimalContext) (view : DailyView) (candidate bindingId : Option String)

/-- A scalar result with its evidence. -/
def observation (node : DailyValueNode) :
    Except V2ExecutionError (DailyValueResult × ValueObservationEvidence) := do
  let result ← (evaluate ctx view candidate bindingId node).mapError .daily
  if result.axes ≠ [] then .error .selectionValueMustBeCandidateScalar
  else match result.cells.get? [], result.observedAt.getLast? with
    | none, _ => .error (.daily .cellMissing)
    | some _, none => .error (.daily .indexOutOfRange)
    | some cell, some observedAt =>
        .ok (result, {
          semanticId := node.semanticId
          candidate := candidate
          value := cell.value
          reason := cell.reason
          observedAt := observedAt
          expressionHash := node.contentHash })

def comparison (semanticId : String) (operator : ComparisonOperator) (left right : DailyValueNode) :
    Except V2ExecutionError (Truth × ComparisonEvidenceV2) := do
  let (l, leftEvidence) ← observation ctx view candidate bindingId left
  let (r, rightEvidence) ← observation ctx view candidate bindingId right
  let truth ← (compareDailyValues l r operator).mapError .daily
  match truth.values.get? [], truth.reasons.get? [] with
  | some outcome, some reason =>
      .ok (outcome, ⟨semanticId, candidate, operator, leftEvidence, rightEvidence, outcome, reason⟩)
  | _, _ => .error (.daily .cellMissing)

mutual

/-- Truth of a Condition with the evidence of its comparisons. Forms that only a
Program executes have no combinator here. -/
def condition : Condition → Except V2ExecutionError (Truth × List ComparisonEvidenceV2)
  | .comparison semanticId operator (.daily left) (.daily right) => do
      let (outcome, evidence) ← comparison ctx view candidate bindingId semanticId operator left right
      .ok (outcome, [evidence])
  | .comparison _ _ _ _ => .error .legacyValueNotSupported
  | .not _ child => do
      let (value, evidence) ← condition child
      .ok (value.not, evidence)
  | .booleanGroup _ kind children => do
      let results ← conditions children
      let outcome ← combineTruth kind (results.map Prod.fst)
      .ok (outcome, results.flatMap Prod.snd)
  | .nOfM _ _ children => do
      let results ← conditions children
      if results = [] then .error .explicitEmptyTruthPolicyRequired else .error .unknownTruthOperator
  | .stateEquals _ _ _ | .eventWindow _ _ _ => .error .unsupportedCondition

def conditions : List Condition → Except V2ExecutionError (List (Truth × List ComparisonEvidenceV2))
  | [] => .ok []
  | child :: rest => do
      let result ← condition child
      let results ← conditions rest
      .ok (result :: results)

end

end Evaluation

section Stages

/-- Order of scored members: by score, then by symbol. -/
def Before (x y : ℚ × String) : Prop := x.1 < y.1 ∨ x.1 = y.1 ∧ x.2 ≤ y.2

instance : DecidableRel Before := fun x y =>
  inferInstanceAs (Decidable (x.1 < y.1 ∨ x.1 = y.1 ∧ x.2 ≤ y.2))

/-- Members best first. The direction turns the order of symbols as well. -/
def rank (direction : SortDirection) (rankings : List (ℚ × String)) : List (ℚ × String) :=
  match direction with
  | .ascending => rankings.insertionSort Before
  | .descending => rankings.insertionSort (fun x y => Before y x)

/-- Members chosen from the ranked ones, and whether the fallback was. -/
def choose (s : Selection) (ranked : List String) : List String × Bool :=
  if s.count ≤ ranked.length ∨ s.shortagePolicy = .chooseAll then (ranked.take s.count, false)
  else match s.fallbackAsset with
    | some asset => ([asset], true)
    | none => ([], false)

variable (ctx : DecimalContext) (view : DailyView)

def outcome (s : Selection) (member : String) :
    Except V2ExecutionError (Truth × List ComparisonEvidenceV2) :=
  match s.eligibility with
  | none => .ok (.true, [])
  | some eligibility => condition ctx view (some member) (some s.binding.id) eligibility

def score (s : Selection) (node : DailyValueNode) (member : String) :
    Except V2ExecutionError ValueObservationEvidence := do
  let (_, evidence) ← observation ctx view (some member) (some s.binding.id) node
  .ok evidence

end Stages

end CompatibilitySelection

open CompatibilitySelection in
def executeSelectionV2 (ctx : DecimalContext) (strategy : CanonicalStrategy)
    (snapshot : DailyMarketSnapshot) (cutoffIndex : Nat) :
    Except V2ExecutionError SelectionExecutionV2 :=
  let issues := validateStrategyV2 strategy
  if issues ≠ [] then
    .error (.invalidStrategy (issues.map (fun issue => (issue.path, issue.code))))
  else match strategy.selection with
    | none => .error .compatibilitySelectionMissing
    | some s => do
        let view := snapshot.view cutoffIndex
        let members ← members strategy s snapshot
        let outcomes ← members.mapM (fun member => do
          let result ← outcome ctx view s member
          .ok (member, result))
        match s.ranking with
        | .daily node => do
            let eligible := (outcomes.filter (fun entry => entry.2.1 = .true)).map Prod.fst
            let observations ← eligible.mapM (fun member => do
              let evidence ← score ctx view s node member
              .ok (member, evidence))
            let ranked := (rank s.direction (observations.filterMap
              (fun entry => entry.2.value.map (·, entry.1)))).map Prod.snd
            let chosen := choose s ranked
            .ok {
              selectedAssets := chosen.1
              complete := s.count ≤ ranked.length
              evidence := {
                semanticId := s.semanticId
                universeId := s.universeId
                requestedMembers := members
                eligibleMembers := eligible
                unknownMembers := ((outcomes.filter (fun entry => entry.2.1 = .unknown)).map Prod.fst ++
                  (observations.filter (fun entry => entry.2.value.isNone)).map Prod.fst).eraseDups
                rankedMembers := ranked
                selectedMembers := chosen.1
                shortagePolicy := s.shortagePolicy
                fallbackAsset := s.fallbackAsset
                fallbackUsed := chosen.2
                comparisons := outcomes.flatMap (fun entry => entry.2.2)
                rankingObservations := observations.map Prod.snd } }
        | _ => .error .legacyValueNotSupported

end RuleTrade
