import RuleTrade.Strategy.Models

/-! Dumped documents of the models and the content they are compared by. Field
order follows the models. Fields that a kind leaves at their default are left
out, since the kind fixes them. A content hash is represented by the document
it digests. -/

namespace RuleTrade

open Library

abbrev ContentHash := Json

def semanticContentHash (document : Json) : ContentHash := document

/-- Optional entry, null when absent. -/
def optional {α : Type} (f : α → Json) : Option α → Json
  | none => .null
  | some a => f a

def natural (n : Nat) : Json := .number n

mutual

/-- Drop every address, at every depth. -/
def withoutAddresses : Json → Json
  | .object fields => .object (fieldsWithoutAddresses fields)
  | .array items => .array (itemsWithoutAddresses items)
  | document => document

def itemsWithoutAddresses : List Json → List Json
  | [] => []
  | item :: rest => withoutAddresses item :: itemsWithoutAddresses rest

def fieldsWithoutAddresses : List (String × Json) → List (String × Json)
  | [] => []
  | (key, item) :: rest =>
      if key = "semantic_id" then fieldsWithoutAddresses rest
      else (key, withoutAddresses item) :: fieldsWithoutAddresses rest

end

section Texts

def Quantity.text : Quantity → String
  | .price => "price" | .return => "return" | .volume => "volume" | .oscillator => "oscillator"
  | .score => "score" | .money => "money" | .weight => "weight" | .count => "count"
  | .truth => "truth"

def Unit.text : Unit → String
  | .usdPerShare => "USD/share" | .usd => "USD" | .ratio => "ratio" | .points => "points"
  | .shares => "shares" | .count => "count" | .truth => "truth"

def SubjectKind.text : SubjectKind → String
  | .asset => "asset" | .candidate => "candidate" | .groupMembers => "group_members"

def MarketField.text : MarketField → String
  | .open => "open" | .high => "high" | .low => "low" | .close => "close" | .volume => "volume"

def PriceBasis.text : PriceBasis → String
  | .raw => "raw" | .adjusted => "adjusted" | .rawShares => "raw_shares"

def ReductionOperation.text : ReductionOperation → String
  | .mean => "mean" | .median => "median" | .min => "min" | .max => "max" | .std => "std"

def MissingPolicy.text : MissingPolicy → String
  | .requireAll => "require_all" | .skipWithCoverage => "skip_with_coverage"

def ArithmeticOperator.text : ArithmeticOperator → String
  | .add => "add" | .subtract => "subtract" | .multiply => "multiply" | .divide => "divide"

def IndicatorKind.text : IndicatorKind → String
  | .trailingReturn => "trailing_return" | .sma => "sma" | .ema => "ema"
  | .rsiWilderLeanCompat => "rsi_wilder_lean_compat"
  | .realizedVolatility => "realized_volatility"

def SortDirection.text : SortDirection → String
  | .ascending => "ascending" | .descending => "descending"

def CrossSectionalTransform.text : CrossSectionalTransform → String
  | .rank => "rank" | .percentile => "percentile" | .quantile => "quantile"
  | .bucket => "bucket" | .minMax => "min_max" | .zscore => "zscore"

def CrossSectionalReduction.text : CrossSectionalReduction → String
  | .mean => "mean" | .median => "median" | .min => "min" | .max => "max"

def Coverage.text : Coverage → String
  | .requireAll => "require_all" | .availableOnly => "available_only"

def ScoreMissingPolicy.text : ScoreMissingPolicy → String
  | .requireAll => "require_all" | .renormalizeAvailable => "renormalize_available"

def ScoreNormalization.text : ScoreNormalization → String
  | .none => "none" | .sumAbs => "sum_abs"

def ComparisonOperator.text : ComparisonOperator → String
  | .lt => "lt" | .lte => "lte" | .eq => "eq" | .neq => "neq" | .gte => "gte" | .gt => "gt"

def GroupKind.text : GroupKind → String
  | .all => "all" | .any => "any"

def EventWindowRelation.text : EventWindowRelation → String
  | .before => "before" | .after => "after" | .within _ => "within"

def EventWindowRelation.observations : EventWindowRelation → Option Nat
  | .within observations => some observations
  | .before | .after => none

def ShortagePolicy.text : ShortagePolicy → String
  | .chooseAll => "choose_all" | .requireFull => "require_full"

def Timeframe.text : Timeframe → String
  | .session => "session" | .daily => "daily" | .weekly => "weekly" | .monthly => "monthly"

def TerminalBoundaryPolicy.text : TerminalBoundaryPolicy → String
  | .notDue => "not_due" | .fixtureEndIsBoundary => "fixture_end_is_boundary"

def ConditionTrigger.text : ConditionTrigger → String
  | .risingEdge => "rising_edge" | .fallingEdge => "falling_edge" | .whileTrue => "while_true"
  | .becameTrue => "became_true" | .becameFalse => "became_false"
  | .crossesAbove => "crosses_above" | .crossesBelow => "crosses_below"

def EventTrigger.text : EventTrigger → String
  | .scheduled => "scheduled" | .on trigger _ => trigger.text

def Occurrence.text : Occurrence → String
  | .every => "every" | .first => "first" | .ordinal _ => "ordinal"

def Occurrence.number : Occurrence → Option Nat
  | .ordinal n => some n
  | .every | .first => none

def AllocationTargetKind.text : AllocationTargetKind → String
  | .asset _ => "asset" | .selection _ => "selection" | .group _ => "group"
  | .cash => "cash" | .retain => "retain"

def AllocationTargetKind.ref : AllocationTargetKind → Option String
  | .asset ref | .selection ref | .group ref => some ref
  | .cash | .retain => none

def AllocationMethod.text : AllocationMethod → String
  | .equal => "equal" | .fixed => "fixed" | .proportionalScore => "proportional_score"
  | .inverseVolatility => "inverse_volatility"

def UnknownGuardPolicy.text : UnknownGuardPolicy → String
  | .block => "block" | .allow => "allow"

end Texts

/-- Document of a node from its own parameters and its operands. -/
def nodeDocument (attrs : NodeAttrs) (kind : String) (operands : List Json)
    (parameters : List (String × Json)) : Json :=
  .object ([("semantic_id", .text attrs.semanticId), ("kind", .text kind),
    ("operands", .array operands),
    ("subject_kind", optional (fun k => .text k.text) attrs.subjectKind),
    ("subject_id", optional .text attrs.subjectId),
    ("binding_id", optional .text attrs.bindingId)] ++ parameters)

def DailyValueNode.document : DailyValueNode → Json
  | .literal attrs value quantity unit refinement =>
      nodeDocument attrs "literal" []
        [("quantity", .text quantity.text), ("unit", .text unit.text),
          ("refinement", optional .text refinement), ("value", .number value)]
  | .observe attrs field basis =>
      nodeDocument attrs "observe" [] [("field", .text field.text), ("basis", .text basis.text)]
  | .current attrs operand => nodeDocument attrs "current" [operand.document] []
  | .history attrs observations skip operand =>
      nodeDocument attrs "history" [operand.document]
        [("observations", natural observations), ("skip", natural skip)]
  | .indicator attrs kind observations skip operand =>
      nodeDocument attrs kind.text [operand.document]
        [("observations", natural observations), ("skip", natural skip)]
  | .absolute attrs operand => nodeDocument attrs "absolute" [operand.document] []
  | .reduce attrs axis reduction missingPolicy minimumCount minimumFraction operand =>
      nodeDocument attrs "reduce" [operand.document]
        [("axis", .text axis.text), ("reduction", .text reduction.text),
          ("missing_policy", .text missingPolicy.text), ("minimum_count", natural minimumCount),
          ("minimum_fraction", .number minimumFraction)]
  | .arithmetic attrs operator left right =>
      nodeDocument attrs "arithmetic" [left.document, right.document]
        [("arithmetic", .text operator.text)]

def DailyValueNode.contentHash (node : DailyValueNode) : ContentHash :=
  semanticContentHash (withoutAddresses node.document)

def Clock.document (clock : Clock) : Json :=
  .object [("id", .text clock.id),
    ("completed_observations_only", .bool clock.completedObservationsOnly),
    ("sampling", .text clock.sampling)]

mutual

def ValueExpression.document : ValueExpression → Json
  | .daily node => node.document
  | .literal id value quantity unit refinement =>
      .object [("kind", .text "literal"), ("semantic_id", .text id), ("value", .number value),
        ("quantity", .text quantity.text), ("unit", .text unit.text),
        ("refinement", optional .text refinement)]
  | .candidateTrailingReturn id binding lookback clock =>
      .object [("kind", .text "candidate_trailing_return"), ("semantic_id", .text id),
        ("binding_id", .text binding), ("lookback_observations", natural lookback),
        ("clock", clock.document)]
  | .candidateCurrentPrice id binding clock =>
      .object [("kind", .text "candidate_current_price"), ("semantic_id", .text id),
        ("binding_id", .text binding), ("clock", clock.document)]
  | .crossSectional id source domain transform direction bins =>
      .object [("kind", .text "cross_sectional"), ("semantic_id", .text id),
        ("source", source.document), ("domain_id", .text domain),
        ("transform", .text transform.text), ("direction", .text direction.text),
        ("bins", optional natural bins)]
  | .crossSectionalAggregate id source domain reduction coverage =>
      .object [("kind", .text "cross_sectional_aggregate"), ("semantic_id", .text id),
        ("source", source.document), ("domain_id", .text domain),
        ("reduction", .text reduction.text), ("coverage", .text coverage.text)]
  | .score id terms conditionTerms policy =>
      .object [("kind", .text "score"), ("semantic_id", .text id),
        ("terms", .array (ValueExpression.termDocuments terms)),
        ("condition_terms", .array (ValueExpression.conditionTermDocuments conditionTerms)),
        ("missing_policy", .text policy.missingPolicy.text),
        ("normalization", .text policy.normalization.text),
        ("clamp_min", optional .number policy.clampMin),
        ("clamp_max", optional .number policy.clampMax)]
  | .eventRelative id event source offset =>
      .object [("kind", .text "event_relative"), ("semantic_id", .text id),
        ("event_id", .text event), ("source", source.document),
        ("offset_observations", .number offset)]
  | .clockedValue id source clock =>
      .object [("kind", .text "clocked_value"), ("semantic_id", .text id),
        ("source", source.document), ("clock_id", .text clock)]
  | .rememberedValue id memory quantity unit refinement =>
      .object [("kind", .text "remembered_value"), ("semantic_id", .text id),
        ("memory_id", .text memory), ("quantity", .text quantity.text), ("unit", .text unit.text),
        ("refinement", optional .text refinement)]
  | .barsSinceEvent id event =>
      .object [("kind", .text "bars_since_event"), ("semantic_id", .text id),
        ("event_id", .text event)]
  | .barsSinceState id key =>
      .object [("kind", .text "bars_since_state"), ("semantic_id", .text id),
        ("state_key", .text key)]
  | .timeSinceEvent id event =>
      .object [("kind", .text "time_since_event"), ("semantic_id", .text id),
        ("event_id", .text event)]
  | .timeSinceState id key =>
      .object [("kind", .text "time_since_state"), ("semantic_id", .text id),
        ("state_key", .text key)]

def ValueExpression.termDocuments : List ScoreTerm → List Json
  | [] => []
  | .mk id value weight :: rest =>
      .object [("semantic_id", .text id), ("value", value.document), ("weight", .number weight)] ::
        ValueExpression.termDocuments rest

def ValueExpression.conditionTermDocuments : List ConditionPointTerm → List Json
  | [] => []
  | .mk id condition truePoints falsePoints unknownPoints :: rest =>
      .object [("semantic_id", .text id), ("condition", condition.document),
        ("true_points", .number truePoints), ("false_points", .number falsePoints),
        ("unknown_points", optional .number unknownPoints)] ::
        ValueExpression.conditionTermDocuments rest

def Condition.document : Condition → Json
  | .comparison id operator left right =>
      .object [("kind", .text "comparison"), ("semantic_id", .text id),
        ("operator", .text operator.text), ("left", left.document), ("right", right.document)]
  | .booleanGroup id kind children =>
      .object [("kind", .text kind.text), ("semantic_id", .text id),
        ("children", .array (Condition.documents children))]
  | .not id child =>
      .object [("kind", .text "not"), ("semantic_id", .text id), ("child", child.document)]
  | .stateEquals id key expected =>
      .object [("kind", .text "state_equals"), ("semantic_id", .text id), ("state_key", .text key),
        ("expected", .text expected)]
  | .nOfM id minimumTrue children =>
      .object [("kind", .text "n_of_m"), ("semantic_id", .text id),
        ("minimum_true", natural minimumTrue), ("children", .array (Condition.documents children))]
  | .eventWindow id event relation =>
      .object [("kind", .text "event_window"), ("semantic_id", .text id), ("event_id", .text event),
        ("relation", .text relation.text), ("observations", optional natural relation.observations)]

def Condition.documents : List Condition → List Json
  | [] => []
  | child :: rest => child.document :: Condition.documents rest

end

/-- Content of a value expression, whatever its addresses. -/
def valueContentHash (value : ValueExpression) : ContentHash :=
  semanticContentHash (withoutAddresses value.document)

def Selection.document (s : Selection) : Json :=
  .object [("semantic_id", .text s.semanticId), ("universe_id", .text s.universeId),
    ("binding", .object [("id", .text s.binding.id), ("domain_id", .text s.binding.domainId)]),
    ("eligibility", optional Condition.document s.eligibility), ("ranking", s.ranking.document),
    ("direction", .text s.direction.text), ("count", natural s.count),
    ("shortage_policy", .text s.shortagePolicy.text),
    ("fallback_asset", optional .text s.fallbackAsset)]

def ProgramClock.document (clock : ProgramClock) : Json :=
  .object [("id", .text clock.id), ("timeframe", .text clock.timeframe.text),
    ("boundary", .text "close"), ("timezone", .text clock.timezone),
    ("terminal_boundary_policy", .text clock.terminalBoundaryPolicy.text)]

def EventDefinition.document (event : EventDefinition) : Json :=
  .object [("semantic_id", .text event.semanticId), ("clock_id", .text event.clockId),
    ("condition", optional Condition.document event.condition),
    ("trigger", .text event.trigger.text), ("occurrence", .text event.occurrence.text),
    ("ordinal", optional natural event.occurrence.number)]

def AllocationLeg.document (leg : AllocationLeg) : Json :=
  .object [("semantic_id", .text leg.semanticId),
    ("target", .object [("semantic_id", .text leg.target.semanticId),
      ("kind", .text leg.target.kind.text), ("ref", optional .text leg.target.kind.ref)]),
    ("weight", optional .number leg.weight)]

def AllocationStatement.document (s : AllocationStatement) : Json :=
  .object [("kind", .text "allocate"), ("semantic_id", .text s.semanticId),
    ("method", .text s.method.text), ("legs", .array (s.legs.map AllocationLeg.document)),
    ("clock_id", optional .text s.clockId), ("minimum_weight", optional .number s.minimumWeight),
    ("maximum_weight", optional .number s.maximumWeight),
    ("cash_remainder_asset", optional .text s.cashRemainderAsset)]

def StateTransition.document (t : StateTransition) : Json :=
  .object [("semantic_id", .text t.semanticId), ("state_key", .text t.stateKey),
    ("from_value", optional .text t.fromValue), ("to_value", .text t.toValue),
    ("when", t.when.document), ("clock_id", optional .text t.clockId)]

def OverrideRule.document (rule : OverrideRule) : Json :=
  .object [("semantic_id", .text rule.semanticId), ("priority", .number rule.priority),
    ("when", rule.when.document), ("action", rule.action.document)]

mutual

def ProgramStatement.document : ProgramStatement → Json
  | .select s =>
      .object [("kind", .text "select"), ("semantic_id", .text s.semanticId),
        ("selection", s.selection.document), ("output_id", .text s.outputId),
        ("clock_id", optional .text s.clockId)]
  | .allocate s => s.document
  | .control head thenStatements otherwiseStatements =>
      .object [("kind", .text "control"), ("semantic_id", .text head.semanticId),
        ("condition", head.condition.document),
        ("then_statements", .array (ProgramStatement.documents thenStatements)),
        ("otherwise_statements", .array (ProgramStatement.documents otherwiseStatements)),
        ("unknown_policy", .text head.unknownPolicy.text),
        ("clock_id", optional .text head.clockId)]
  | .onEvent id event statements =>
      .object [("kind", .text "on_event"), ("semantic_id", .text id), ("event", event.document),
        ("statements", .array (ProgramStatement.documents statements))]
  | .transition id change =>
      .object [("kind", .text "transition"), ("semantic_id", .text id),
        ("transition", change.document)]
  | .rememberValue s =>
      .object [("kind", .text "remember_value"), ("semantic_id", .text s.semanticId),
        ("memory_id", .text s.memoryId), ("value", s.value.document),
        ("clock_id", optional .text s.clockId)]
  | .guardedAllocation s =>
      .object [("kind", .text "guarded_allocation"), ("semantic_id", .text s.semanticId),
        ("guard", optional Condition.document s.guard), ("primary", s.primary.document),
        ("overrides", .array (s.overrides.map OverrideRule.document)),
        ("fallback", optional AllocationStatement.document s.fallback),
        ("unknown_guard_policy", .text s.unknownGuardPolicy.text)]
  | .unresolved s =>
      .object [("kind", .text "unresolved"), ("semantic_id", .text s.semanticId),
        ("source_text", .text s.sourceText), ("category", .text s.category),
        ("reason", .text s.reason)]

def ProgramStatement.documents : List ProgramStatement → List Json
  | [] => []
  | statement :: rest => statement.document :: ProgramStatement.documents rest

end

def FormalizationProvenance.document (f : FormalizationProvenance) : Json :=
  .object [("source_phrase", .text f.sourcePhrase),
    ("status", .text (if f.unresolved then "unresolved" else "formalized")),
    ("semantic_ids", .array (f.semanticIds.map .text))]

def SemanticProgram.document (program : SemanticProgram) : Json :=
  .object [("semantic_id", .text program.semanticId),
    ("clocks", .array (program.clocks.map ProgramClock.document)),
    ("initial_state", .object (program.initialState.entries.map
      (fun entry => (entry.1, .text entry.2)))),
    ("formalizations", .array (program.formalizations.map FormalizationProvenance.document)),
    ("statements", .array (ProgramStatement.documents program.statements))]

end RuleTrade
