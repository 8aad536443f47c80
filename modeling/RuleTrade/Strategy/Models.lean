import RuleTrade.Strategy.DailyNode
import RuleTrade.Library.Dict
import Mathlib.Algebra.Order.Field.Basic
import Mathlib.Tactic.Linarith
import Mathlib.Tactic.NormNum

/-! Abstract syntax of the Semantic Program Core. Shape rules that mention
one model only are fields of that model, so a program that breaks them cannot
be written down. -/

namespace RuleTrade

open Library

/-- A ticker: up to 32 letters, digits, points, underscores, colons and hyphens. -/
def isSymbol (text : String) : Bool :=
  !text.toList.isEmpty && decide (text.toList.length ≤ 32) &&
    text.toList.all (fun c => c.isAlphanum || c = '.' || c = '_' || c = ':' || c = '-')

inductive SortDirection where
  | ascending
  | descending
  deriving DecidableEq, Repr

inductive CrossSectionalTransform where
  | rank
  | percentile
  | quantile
  | bucket
  | minMax
  | zscore
  deriving DecidableEq, Repr

inductive CrossSectionalReduction where
  | mean
  | median
  | min
  | max
  deriving DecidableEq, Repr

inductive Coverage where
  | requireAll
  | availableOnly
  deriving DecidableEq, Repr

inductive ScoreMissingPolicy where
  | requireAll
  | renormalizeAvailable
  deriving DecidableEq, Repr

inductive ScoreNormalization where
  | none
  | sumAbs
  deriving DecidableEq, Repr

structure ScorePolicy where
  missingPolicy : ScoreMissingPolicy := .requireAll
  normalization : ScoreNormalization := .none
  clampMin : Option ℚ := none
  clampMax : Option ℚ := none
  deriving DecidableEq

inductive ComparisonOperator where
  | lt
  | lte
  | eq
  | neq
  | gte
  | gt
  deriving DecidableEq, Repr

inductive GroupKind where
  | all
  | any
  deriving DecidableEq, Repr

/-- Relation of the decision to an Event. Only `within` carries a window. -/
inductive EventWindowRelation where
  | before
  | after
  | within (observations : Nat)
  deriving DecidableEq, Repr

mutual

inductive ValueExpression where
  | daily (node : DailyValueNode)
  | literal (semanticId : String) (value : ℚ) (quantity : Quantity) (unit : Unit)
      (refinement : Option String)
  | candidateTrailingReturn (semanticId bindingId : String) (lookbackObservations : Nat)
      (clock : Clock)
  | candidateCurrentPrice (semanticId bindingId : String) (clock : Clock)
  | crossSectional (semanticId : String) (source : ValueExpression) (domainId : String)
      (transform : CrossSectionalTransform) (direction : SortDirection) (bins : Option Nat)
  | crossSectionalAggregate (semanticId : String) (source : ValueExpression) (domainId : String)
      (reduction : CrossSectionalReduction) (coverage : Coverage)
  | score (semanticId : String) (terms : List ScoreTerm) (conditionTerms : List ConditionPointTerm)
      (policy : ScorePolicy)
  | eventRelative (semanticId eventId : String) (source : DailyValueNode)
      (offsetObservations : Int)
  | clockedValue (semanticId : String) (source : DailyValueNode) (clockId : String)
  | rememberedValue (semanticId memoryId : String) (quantity : Quantity) (unit : Unit)
      (refinement : Option String)
  | barsSinceEvent (semanticId eventId : String)
  | barsSinceState (semanticId stateKey : String)
  | timeSinceEvent (semanticId eventId : String)
  | timeSinceState (semanticId stateKey : String)

inductive ScoreTerm where
  | mk (semanticId : String) (value : ValueExpression) (weight : ℚ)

inductive ConditionPointTerm where
  | mk (semanticId : String) (condition : Condition) (truePoints falsePoints : ℚ)
      (unknownPoints : Option ℚ)

inductive Condition where
  | comparison (semanticId : String) (operator : ComparisonOperator)
      (left right : ValueExpression)
  | booleanGroup (semanticId : String) (kind : GroupKind) (children : List Condition)
  | not (semanticId : String) (child : Condition)
  | stateEquals (semanticId stateKey expected : String)
  | nOfM (semanticId : String) (minimumTrue : Nat) (children : List Condition)
  | eventWindow (semanticId eventId : String) (relation : EventWindowRelation)

end

def ValueExpression.semanticId : ValueExpression → String
  | .daily node => node.semanticId
  | .literal id _ _ _ _ | .candidateTrailingReturn id _ _ _ | .candidateCurrentPrice id _ _
  | .crossSectional id _ _ _ _ _ | .crossSectionalAggregate id _ _ _ _ | .score id _ _ _
  | .eventRelative id _ _ _ | .clockedValue id _ _ | .rememberedValue id _ _ _ _
  | .barsSinceEvent id _ | .barsSinceState id _ | .timeSinceEvent id _ | .timeSinceState id _ => id

def ScoreTerm.semanticId : ScoreTerm → String
  | .mk id _ _ => id

def ScoreTerm.value : ScoreTerm → ValueExpression
  | .mk _ value _ => value

def ConditionPointTerm.semanticId : ConditionPointTerm → String
  | .mk id _ _ _ _ => id

def ConditionPointTerm.condition : ConditionPointTerm → Condition
  | .mk _ condition _ _ _ => condition

def Condition.semanticId : Condition → String
  | .comparison id _ _ _ | .booleanGroup id _ _ | .not id _ | .stateEquals id _ _
  | .nOfM id _ _ | .eventWindow id _ _ => id

structure CandidateBinding where
  id : String
  domainId : String
  deriving DecidableEq, Repr

/-- Candidate observations and legacy Candidate values under a value belong to
one binder. Other composite values are not looked into. -/
def ValueExpression.boundTo (bindingId : String) : ValueExpression → Bool
  | .daily node => node.nodes.all (fun n =>
      n.attrs.subjectKind ≠ some .candidate || n.attrs.bindingId = some bindingId)
  | .candidateTrailingReturn _ binding _ _ | .candidateCurrentPrice _ binding _ =>
      binding = bindingId
  | _ => true

mutual

def Condition.boundTo (bindingId : String) : Condition → Bool
  | .comparison _ _ left right => left.boundTo bindingId && right.boundTo bindingId
  | .booleanGroup _ _ children | .nOfM _ _ children => Condition.allBoundTo bindingId children
  | .not _ child => child.boundTo bindingId
  | .stateEquals _ _ _ | .eventWindow _ _ _ => true

def Condition.allBoundTo (bindingId : String) : List Condition → Bool
  | [] => true
  | child :: rest => child.boundTo bindingId && Condition.allBoundTo bindingId rest

end

inductive ShortagePolicy where
  | chooseAll
  | requireFull
  deriving DecidableEq, Repr

structure Selection where
  semanticId : String
  universeId : String
  binding : CandidateBinding
  eligibility : Option Condition := none
  ranking : ValueExpression
  direction : SortDirection := .descending
  count : Nat
  shortagePolicy : ShortagePolicy := .chooseAll
  fallbackAsset : Option String := none
  count_range : 1 ≤ count ∧ count ≤ 100 := by decide
  binding_domain : binding.domainId = universeId := by rfl
  ranking_bound : ranking.boundTo binding.id = true := by decide +kernel
  eligibility_bound : eligibility.all (Condition.boundTo binding.id) = true := by decide +kernel

inductive Timeframe where
  | session
  | daily
  | weekly
  | monthly
  deriving DecidableEq, Repr

inductive TerminalBoundaryPolicy where
  | notDue
  | fixtureEndIsBoundary
  deriving DecidableEq, Repr

structure ProgramClock where
  id : String
  timeframe : Timeframe
  timezone : String := "UTC"
  terminalBoundaryPolicy : TerminalBoundaryPolicy := .notDue
  deriving DecidableEq, Repr

inductive ConditionTrigger where
  | risingEdge
  | fallingEdge
  | whileTrue
  | becameTrue
  | becameFalse
  | crossesAbove
  | crossesBelow
  deriving DecidableEq, Repr

/-- A scheduled Event has no Condition, and every other Event has one. -/
inductive EventTrigger where
  | scheduled
  | on (trigger : ConditionTrigger) (condition : Condition)

inductive Occurrence where
  | every
  | first
  | ordinal (ordinal : Nat)
  deriving DecidableEq, Repr

structure EventDefinition where
  semanticId : String
  clockId : String
  trigger : EventTrigger
  occurrence : Occurrence := .every

def EventDefinition.condition (event : EventDefinition) : Option Condition :=
  match event.trigger with
  | .scheduled => none
  | .on _ condition => some condition

inductive AllocationTargetKind where
  | asset (ref : String)
  | selection (ref : String)
  | group (ref : String)
  | cash
  | retain
  deriving DecidableEq, Repr

structure AllocationTarget where
  semanticId : String
  kind : AllocationTargetKind
  deriving DecidableEq, Repr

structure AllocationLeg where
  semanticId : String
  target : AllocationTarget
  weight : Option ℚ := none
  deriving DecidableEq

inductive AllocationMethod where
  | equal
  | fixed
  | proportionalScore
  | inverseVolatility
  deriving DecidableEq, Repr

/-- Methods whose weights come from the scores of one Selection. -/
def AllocationMethod.scoreDerived : AllocationMethod → Bool
  | .proportionalScore | .inverseVolatility => true
  | .equal | .fixed => false

/-- The legs are one leg, and it targets a Selection output. -/
def isSelectionLeg : List AllocationLeg → Bool
  | [leg] =>
      match leg.target.kind with
      | .selection _ => true
      | _ => false
  | _ => false

/-- A number of the unit interval, when present. -/
def inUnitInterval (weight : Option ℚ) : Bool :=
  weight.all (fun w => 0 ≤ w && w ≤ 1)

structure AllocationStatement where
  semanticId : String
  method : AllocationMethod
  legs : List AllocationLeg
  clockId : Option String := none
  minimumWeight : Option ℚ := none
  maximumWeight : Option ℚ := none
  cashRemainderAsset : Option String := none
  legs_range : 1 ≤ legs.length ∧ legs.length ≤ 100 := by decide
  weights_range : legs.all (fun leg => inUnitInterval leg.weight) = true := by decide +kernel
  retain_sole : (∃ leg ∈ legs, leg.target.kind = .retain) → legs.length = 1 ∧ method = .equal := by
    decide
  fixed_weights : method = .fixed → legs.all (fun leg => leg.weight.isSome) = true ∧
    (legs.map (fun leg => leg.weight.getD 0)).sum = 1 := by decide +kernel
  derived_weights : method ≠ .fixed → legs.all (fun leg => leg.weight.isNone) = true := by decide
  bounds_range : inUnitInterval minimumWeight = true ∧ inUnitInterval maximumWeight = true := by
    decide +kernel
  bounds_ordered : minimumWeight.all (fun low => maximumWeight.all (fun high => low ≤ high)) = true
    := by decide +kernel
  score_target : method.scoreDerived = true → isSelectionLeg legs = true := by decide
  plain_bounds : method.scoreDerived = false →
    minimumWeight = none ∧ maximumWeight = none ∧ cashRemainderAsset = none := by decide

structure SelectionStatement where
  semanticId : String
  selection : Selection
  outputId : String
  clockId : Option String := none

structure StateTransition where
  semanticId : String
  stateKey : String
  fromValue : Option String := none
  toValue : String
  when : Condition
  clockId : Option String := none

structure RememberValueStatement where
  semanticId : String
  memoryId : String
  value : ValueExpression
  clockId : Option String := none

inductive UnknownPolicy where
  | retain
  | otherwise
  deriving DecidableEq, Repr

def UnknownPolicy.text : UnknownPolicy → String
  | .retain => "retain"
  | .otherwise => "otherwise"

/-- A Control statement without its two branches. -/
structure ConditionalHead where
  semanticId : String
  condition : Condition
  unknownPolicy : UnknownPolicy := .retain
  clockId : Option String := none

structure OverrideRule where
  semanticId : String
  priority : Int
  when : Condition
  action : AllocationStatement

inductive UnknownGuardPolicy where
  | block
  | allow
  deriving DecidableEq, Repr

structure GuardedAllocationStatement where
  semanticId : String
  guard : Option Condition := none
  primary : AllocationStatement
  overrides : List OverrideRule := []
  fallback : Option AllocationStatement := none
  unknownGuardPolicy : UnknownGuardPolicy := .block

structure UnresolvedStatement where
  semanticId : String
  sourceText : String
  category : String
  reason : String

inductive ProgramStatement where
  | select (statement : SelectionStatement)
  | allocate (statement : AllocationStatement)
  | control (head : ConditionalHead) (thenStatements otherwiseStatements : List ProgramStatement)
  | onEvent (semanticId : String) (event : EventDefinition) (statements : List ProgramStatement)
  | transition (semanticId : String) (transition : StateTransition)
  | rememberValue (statement : RememberValueStatement)
  | guardedAllocation (statement : GuardedAllocationStatement)
  | unresolved (statement : UnresolvedStatement)

def ProgramStatement.semanticId : ProgramStatement → String
  | .select s => s.semanticId
  | .allocate s => s.semanticId
  | .control head _ _ => head.semanticId
  | .onEvent id _ _ => id
  | .transition id _ => id
  | .rememberValue s => s.semanticId
  | .guardedAllocation s => s.semanticId
  | .unresolved s => s.semanticId

/-- Statement lists a statement can go on to execute. -/
def ProgramStatement.bodies : ProgramStatement → List (List ProgramStatement)
  | .control _ thenStatements otherwiseStatements => [thenStatements, otherwiseStatements]
  | .onEvent _ _ statements => [statements]
  | _ => []

structure FormalizationProvenance where
  sourcePhrase : String
  unresolved : Bool
  semanticIds : List String := []

structure SemanticProgram where
  semanticId : String
  clocks : List ProgramClock
  initialState : Dict String String := Dict.empty
  formalizations : List FormalizationProvenance := []
  statements : List ProgramStatement
  clock_ids_unique : (clocks.map ProgramClock.id).Nodup := by decide +kernel

namespace ProgramStatement

/-- Induction over statement lists: a list follows from its tail and from the
bodies of its head. -/
theorem list_induction {P : List ProgramStatement → Prop} (hNil : P [])
    (hCons : ∀ statement rest, (∀ body ∈ statement.bodies, P body) → P rest →
      P (statement :: rest)) (statements : List ProgramStatement) : P statements := by
  refine @ProgramStatement.rec_1 (fun s => ∀ body ∈ s.bodies, P body) P
    ?_ ?_ ?_ ?_ ?_ ?_ ?_ ?_ hNil ?_ statements
  case refine_3 =>
    intro head thenStatements otherwiseStatements hThen hOtherwise body hBody
    simp only [bodies, List.mem_cons, List.not_mem_nil, or_false] at hBody
    rcases hBody with rfl | rfl
    · exact hThen
    · exact hOtherwise
  case refine_4 =>
    intro id event statements hBody body hMem
    simp only [bodies, List.mem_singleton] at hMem
    subst hMem
    exact hBody
  case refine_9 =>
    intro statement rest hStatement hRest
    exact hCons statement rest hStatement hRest
  all_goals
    intros
    simp_all [bodies]

end ProgramStatement

end RuleTrade
