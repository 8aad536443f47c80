import RuleTrade.Strategy.Documents

/-! Types, roles and limits of Values and Conditions, reported as diagnostics. -/

namespace RuleTrade

open Library

inductive SemanticRole where
  | predicate
  | eligibility
  | ranking
  | allocationInput
  | researchPreview
  deriving DecidableEq, Repr

structure SemanticDiagnostic where
  code : String
  path : String
  message : String
  deriving DecidableEq, Repr

/-- Diagnostic for a failed type inference, coded by the text before the colon. -/
def SemanticTypeError.diagnostic (e : SemanticTypeError) (path : String) : SemanticDiagnostic :=
  ⟨e.code, path, e.message⟩

section Inference

def CrossSectionalTransform.unit : CrossSectionalTransform → Unit
  | .percentile | .minMax | .zscore => .ratio
  | .rank | .quantile | .bucket => .points

/-- A Score is a dimensionless number of points over its first term's type. -/
def scoreType (template : Option SemanticType) : SemanticType :=
  { template.getD { dtype := .decimal, quantity := .score, unit := .points } with
    quantity := .score, unit := .points, refinement := some "weighted_score@1", axes := [] }

def scoreTermCheck (type : SemanticType) : Except SemanticTypeError SemanticType :=
  if type.dtype ≠ .decimal ∧ type.dtype ≠ .integer then .error .scoreTermNotNumeric
  else if type.unit ≠ .ratio ∧ type.unit ≠ .points then .error .scoreTermNotDimensionless
  else .ok type

def elapsedType (refinement : String) : SemanticType :=
  { dtype := .integer, quantity := .count, unit := .count, refinement := some refinement }

mutual

def inferProgramValueType (bindingId : Option String) :
    ValueExpression → Except SemanticTypeError SemanticType
  | .daily node => inferDailyType bindingId node
  | .crossSectional _ source _ transform _ _ => do
      let type ← inferProgramValueType bindingId source
      .ok { type with
        quantity := .score, unit := transform.unit,
        refinement := some ("cross_sectional:" ++ transform.text ++ "@1"), axes := [] }
  | .crossSectionalAggregate _ source _ _ _ => do
      let type ← inferProgramValueType bindingId source
      .ok { type with axes := [] }
  | .score _ terms _ _ => do
      let types ← inferScoreTerms bindingId terms
      .ok (scoreType types.head?)
  | .eventRelative _ _ source _ | .clockedValue _ source _ => inferDailyType bindingId source
  | .rememberedValue _ _ quantity unit refinement | .literal _ _ quantity unit refinement =>
      .ok { dtype := .decimal, quantity := quantity, unit := unit, refinement := refinement }
  | .barsSinceEvent _ _ | .barsSinceState _ _ => .ok (elapsedType "elapsed_observations@1")
  | .timeSinceEvent _ _ | .timeSinceState _ _ => .ok (elapsedType "elapsed_calendar_days@1")
  | .candidateTrailingReturn _ _ _ clock =>
      .ok { dtype := .decimal, quantity := .return, unit := .ratio,
            refinement := some "trailing_return:adjusted_close", clock := some clock }
  | .candidateCurrentPrice _ _ clock =>
      .ok { dtype := .decimal, quantity := .price, unit := .usdPerShare,
            refinement := some "adjusted_close", clock := some clock }

def inferScoreTerms (bindingId : Option String) :
    List ScoreTerm → Except SemanticTypeError (List SemanticType)
  | [] => .ok []
  | .mk _ term _ :: rest => do
      let inferred ← inferProgramValueType bindingId term
      let type ← scoreTermCheck inferred
      let types ← inferScoreTerms bindingId rest
      .ok (type :: types)

end

end Inference

section Traversal

mutual

/-- Values compared by a Condition, from left to right. -/
def Condition.values : Condition → List ValueExpression
  | .comparison _ _ left right => [left, right]
  | .booleanGroup _ _ children | .nOfM _ _ children => Condition.allValues children
  | .not _ child => child.values
  | .stateEquals _ _ _ | .eventWindow _ _ _ => []

def Condition.allValues : List Condition → List ValueExpression
  | [] => []
  | child :: rest => child.values ++ Condition.allValues rest

end

mutual

def Condition.stateKeys : Condition → List String
  | .stateEquals _ key _ => [key]
  | .booleanGroup _ _ children | .nOfM _ _ children => Condition.allStateKeys children
  | .not _ child => child.stateKeys
  | .comparison _ _ _ _ | .eventWindow _ _ _ => []

def Condition.allStateKeys : List Condition → List String
  | [] => []
  | child :: rest => child.stateKeys ++ Condition.allStateKeys rest

end

mutual

/-- Events referenced by the windows of a Condition. -/
def Condition.eventWindows : Condition → List String
  | .eventWindow _ event _ => [event]
  | .booleanGroup _ _ children | .nOfM _ _ children => Condition.allEventWindows children
  | .not _ child => child.eventWindows
  | .comparison _ _ _ _ | .stateEquals _ _ _ => []

def Condition.allEventWindows : List Condition → List String
  | [] => []
  | child :: rest => child.eventWindows ++ Condition.allEventWindows rest

end

mutual

/-- Daily nodes a value is computed from, at every depth. -/
def ValueExpression.dailyNodes : ValueExpression → List DailyValueNode
  | .daily node => node.nodes
  | .crossSectional _ source _ _ _ _ | .crossSectionalAggregate _ source _ _ _ =>
      source.dailyNodes
  | .score _ terms conditionTerms _ =>
      ValueExpression.termNodes terms ++ ValueExpression.conditionTermNodes conditionTerms
  | .eventRelative _ _ source _ | .clockedValue _ source _ => source.nodes
  | _ => []

def ValueExpression.termNodes : List ScoreTerm → List DailyValueNode
  | [] => []
  | .mk _ value _ :: rest => value.dailyNodes ++ ValueExpression.termNodes rest

def ValueExpression.conditionTermNodes : List ConditionPointTerm → List DailyValueNode
  | [] => []
  | .mk _ condition _ _ _ :: rest =>
      condition.dailyNodes ++ ValueExpression.conditionTermNodes rest

/-- Daily nodes of the values a Condition compares. -/
def Condition.dailyNodes : Condition → List DailyValueNode
  | .comparison _ _ left right => left.dailyNodes ++ right.dailyNodes
  | .booleanGroup _ _ children | .nOfM _ _ children => Condition.allDailyNodes children
  | .not _ child => child.dailyNodes
  | .stateEquals _ _ _ | .eventWindow _ _ _ => []

def Condition.allDailyNodes : List Condition → List DailyValueNode
  | [] => []
  | child :: rest => child.dailyNodes ++ Condition.allDailyNodes rest

end

mutual

def ValueExpression.semanticIds : ValueExpression → List String
  | .daily node => node.nodes.map DailyValueNode.semanticId
  | .crossSectional id source _ _ _ _ | .crossSectionalAggregate id source _ _ _ =>
      id :: source.semanticIds
  | .score id terms conditionTerms _ =>
      id :: (ValueExpression.termIds terms ++ ValueExpression.conditionTermIds conditionTerms)
  | .eventRelative id _ source _ | .clockedValue id source _ =>
      id :: source.nodes.map DailyValueNode.semanticId
  | .literal id _ _ _ _ | .candidateTrailingReturn id _ _ _ | .candidateCurrentPrice id _ _
  | .rememberedValue id _ _ _ _ | .barsSinceEvent id _ | .barsSinceState id _
  | .timeSinceEvent id _ | .timeSinceState id _ => [id]

def ValueExpression.termIds : List ScoreTerm → List String
  | [] => []
  | .mk id value _ :: rest => id :: (value.semanticIds ++ ValueExpression.termIds rest)

def ValueExpression.conditionTermIds : List ConditionPointTerm → List String
  | [] => []
  | .mk id condition _ _ _ :: rest =>
      id :: (condition.semanticIds ++ ValueExpression.conditionTermIds rest)

def Condition.semanticIds : Condition → List String
  | .comparison id _ left right => id :: (left.semanticIds ++ right.semanticIds)
  | .booleanGroup id _ children | .nOfM id _ children => id :: Condition.allSemanticIds children
  | .not id child => id :: child.semanticIds
  | .stateEquals id _ _ | .eventWindow id _ _ => [id]

def Condition.allSemanticIds : List Condition → List String
  | [] => []
  | child :: rest => child.semanticIds ++ Condition.allSemanticIds rest

end

/-- Domains of the cross-sections under a value, outside Condition terms. -/
def ValueExpression.crossDomains : ValueExpression → List String
  | .crossSectional _ source domain _ _ _ | .crossSectionalAggregate _ source domain _ _ =>
      domain :: source.crossDomains
  | .score _ terms _ _ => termDomains terms
  | _ => []
where
  termDomains : List ScoreTerm → List String
    | [] => []
    | .mk _ value _ :: rest => value.crossDomains ++ termDomains rest

end Traversal

section Conditions

def candidateIds (nodes : List DailyValueNode) : List String :=
  nodes.filterMap (fun node =>
    if node.attrs.subjectKind = some .candidate then
      node.attrs.bindingId.filter (fun id => id ≠ "")
    else none)

/-- Binders mentioned by one side of a comparison. -/
def ValueExpression.bindings : ValueExpression → List String
  | .daily node => candidateIds node.nodes
  | .candidateTrailingReturn _ binding _ _ | .candidateCurrentPrice _ binding _ => [binding]
  | value => value.dailyNodes.flatMap (fun node => candidateIds node.nodes)

def bindingDiagnostics (role : SemanticRole) (boundCandidateId : Option String) (path : String)
    (value : ValueExpression) : List SemanticDiagnostic :=
  value.bindings.filterMap (fun candidateId =>
    if role = .predicate then
      some ⟨"unbound_candidate", path,
        "Candidate values are legal only inside an Eligibility/Ranking lexical binding."⟩
    else if some candidateId ≠ boundCandidateId then
      some ⟨"unbound_candidate", path, "Candidate value does not belong to this Selection binder."⟩
    else none)

/-- Result axes of a comparison. -/
def comparisonAxes (boundCandidateId : Option String) (left right : ValueExpression) :
    Except SemanticTypeError (List Axis) := do
  let l ← inferProgramValueType boundCandidateId left
  let r ← inferProgramValueType boundCandidateId right
  requireCompatibleValues l r

def validateComparison (role : SemanticRole) (boundCandidateId : Option String)
    (left right : ValueExpression) : List SemanticDiagnostic :=
  bindingDiagnostics role boundCandidateId "left" left ++
    bindingDiagnostics role boundCandidateId "right" right ++
    match comparisonAxes boundCandidateId left right with
    | .error e => [e.diagnostic "comparison"]
    | .ok axes =>
        if role = .predicate ∧ axes ≠ [] then
          [⟨"requires_scalar_predicate", "comparison",
            "A Predicate must resolve to scalar Truth; reduce Asset/Time explicitly."⟩]
        else []

/-- Depth, widest group and node count of a Condition. -/
structure ConditionLimits where
  depth : Nat
  width : Nat
  total : Nat

mutual

def conditionLimits : Condition → ConditionLimits
  | .comparison _ _ _ _ | .stateEquals _ _ _ | .eventWindow _ _ _ => ⟨1, 0, 1⟩
  | .not _ child =>
      let limits := conditionLimits child
      ⟨limits.depth + 1, limits.width, limits.total + 1⟩
  | .booleanGroup _ _ children | .nOfM _ _ children =>
      let limits := allConditionLimits children
      ⟨limits.depth + 1, max children.length limits.width, limits.total + 1⟩

def allConditionLimits : List Condition → ConditionLimits
  | [] => ⟨0, 0, 0⟩
  | child :: rest =>
      let first := conditionLimits child
      let others := allConditionLimits rest
      ⟨max first.depth others.depth, max first.width others.width, first.total + others.total⟩

end

def limitDiagnostics (limits : ConditionLimits) : List SemanticDiagnostic :=
  (if 4 < limits.depth then
    [⟨"condition_depth_limit", "condition",
      "Boolean conditions support at most four nested levels."⟩] else []) ++
  (if 12 < limits.width then
    [⟨"condition_width_limit", "condition",
      "A Boolean group supports at most twelve clauses."⟩] else []) ++
  (if 40 < limits.total then
    [⟨"condition_node_limit", "condition", "A Condition supports at most forty nodes."⟩] else [])

/-- State and Event windows gate Program flow and never filter Candidates. -/
def stateRole (role : SemanticRole) : List SemanticDiagnostic :=
  if role ≠ .predicate then
    [⟨"state_condition_role_forbidden", "condition",
      "Program state may gate Control, Event, transitions, guards, and overrides; it cannot filter Candidates."⟩]
  else []

mutual

def validateCondition (role : SemanticRole) (boundCandidateId : Option String) :
    Condition → List SemanticDiagnostic
  | .comparison id operator left right =>
      limitDiagnostics (conditionLimits (.comparison id operator left right)) ++
        validateComparison role boundCandidateId left right
  | .stateEquals id key expected =>
      limitDiagnostics (conditionLimits (.stateEquals id key expected)) ++ stateRole role
  | .eventWindow id event relation =>
      limitDiagnostics (conditionLimits (.eventWindow id event relation)) ++ stateRole role
  | .booleanGroup id kind children =>
      limitDiagnostics (conditionLimits (.booleanGroup id kind children)) ++
        validateConditions role boundCandidateId children
  | .nOfM id minimumTrue children =>
      limitDiagnostics (conditionLimits (.nOfM id minimumTrue children)) ++
        validateConditions role boundCandidateId children
  | .not id child =>
      limitDiagnostics (conditionLimits (.not id child)) ++
        validateCondition role boundCandidateId child

def validateConditions (role : SemanticRole) (boundCandidateId : Option String) :
    List Condition → List SemanticDiagnostic
  | [] => []
  | child :: rest =>
      validateCondition role boundCandidateId child ++
        validateConditions role boundCandidateId rest

end

end Conditions

end RuleTrade
