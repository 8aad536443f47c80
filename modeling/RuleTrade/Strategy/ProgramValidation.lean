import RuleTrade.Strategy.Validation

/-! Validation of a whole Program: addresses, clocks, definite Selection
outputs, references, provider fields and formalizations. A Program is accepted
when nothing is reported. -/

namespace RuleTrade

open Library

/-- A name quoted as diagnostics quote it. -/
def quoted (name : String) : String := "'" ++ name ++ "'"

def indexed (path : String) (index : Nat) : String := path ++ "[" ++ toString index ++ "]"

section Identity

/-- Content seen under each semantic id, with the path it was last seen at. -/
structure IdentityState where
  identities : Dict String (ContentHash × String) := Dict.empty
  diagnostics : List SemanticDiagnostic := []

/-- Compare one addressed object with the content known under its id. -/
def IdentityState.register (s : IdentityState) (id : String) (content : ContentHash)
    (path : String) : IdentityState :=
  let renewed := { s with identities := s.identities.set id (content, path) }
  match s.identities.get? id with
  | none => renewed
  | some (known, first) =>
      if known ≠ content then
        { s with diagnostics := s.diagnostics ++ [⟨"semantic_id_content_conflict", path,
            "Semantic id " ++ quoted id ++ " has different content at " ++ first ++ " and " ++
              path ++ "."⟩] }
      else renewed

def semanticIdOf (fields : List (String × Json)) : Option String :=
  match fields.find? (fun field => field.1 = "semantic_id") with
  | some (_, .text id) => some id
  | _ => none

mutual

def inspectIdentity : Json → String → IdentityState → IdentityState
  | .object fields, path, s =>
      let registered := match semanticIdOf fields with
        | none => s
        | some id => s.register id (semanticContentHash
            (.object (fields.filter (fun field => field.1 ≠ "semantic_id")))) path
      inspectFields fields path registered
  | .array items, path, s => inspectItems items path 0 s
  | _, _, s => s

def inspectFields : List (String × Json) → String → IdentityState → IdentityState
  | [], _, s => s
  | (key, item) :: rest, path, s =>
      inspectFields rest path (inspectIdentity item (path ++ "." ++ key) s)

def inspectItems : List Json → String → Nat → IdentityState → IdentityState
  | [], _, _, s => s
  | item :: rest, path, index, s =>
      inspectItems rest path (index + 1) (inspectIdentity item (indexed path index) s)

end

def identityDiagnostics (program : SemanticProgram) : List SemanticDiagnostic :=
  (inspectIdentity program.document "program" {}).diagnostics

end Identity

section Outputs

mutual

/-- Selection outputs defined on every way through a statement. An Event may
not trigger, so its body defines nothing for what follows. -/
def ProgramStatement.outputsAfter : ProgramStatement → List String → List String
  | .select s, available => s.outputId :: available
  | .control _ thenStatements otherwiseStatements, available =>
      let thenOutputs := ProgramStatement.outputsAfterAll thenStatements available
      let otherwiseOutputs := ProgramStatement.outputsAfterAll otherwiseStatements available
      available ++ thenOutputs.filter (fun output => output ∈ otherwiseOutputs)
  | _, available => available

def ProgramStatement.outputsAfterAll : List ProgramStatement → List String → List String
  | [], available => available
  | statement :: rest, available =>
      ProgramStatement.outputsAfterAll rest (statement.outputsAfter available)

end

end Outputs

section Visit

/-- What the visit of the statements collects. -/
structure ValidationState where
  diagnostics : List SemanticDiagnostic := []
  statementIds : List String := []
  eventIds : List String := []
  selectionOutputs : List String := []
  selectionOutputTypes : Dict String SemanticType := Dict.empty
  memories : List String := []
  eventWindows : List (String × String) := []
  conditionIds : List String := []

namespace ValidationState

def report (s : ValidationState) (found : List SemanticDiagnostic) : ValidationState :=
  { s with diagnostics := s.diagnostics ++ found }

/-- Report when a check fails. -/
def ensure (s : ValidationState) (holds : Bool) (code path message : String) : ValidationState :=
  if holds then s else s.report [⟨code, path, message⟩]

end ValidationState

variable (program : SemanticProgram)

def stateDiagnostics (c : Condition) (path : String) : List SemanticDiagnostic :=
  (c.stateKeys.filter (fun key => !program.initialState.contains key)).map (fun key =>
    ⟨"undeclared_state", path,
      "State condition references uninitialized key " ++ quoted key ++ "."⟩)

def checkCondition (c : Condition) (path : String) (role : SemanticRole)
    (bindingId : Option String) (s : ValidationState) : ValidationState :=
  { s with
    diagnostics := s.diagnostics ++
      (validateCondition role bindingId c ++ stateDiagnostics program c path)
    conditionIds := s.conditionIds ++ c.semanticIds
    eventWindows := s.eventWindows ++ c.eventWindows.map (·, path) }

def checkOptional (c : Option Condition) (path : String) (role : SemanticRole)
    (bindingId : Option String) (s : ValidationState) : ValidationState :=
  match c with
  | none => s
  | some c => checkCondition program c path role bindingId s

def hasClock (clockId : String) : Bool :=
  program.clocks.any (fun clock => clock.id = clockId)

def checkClock (clockId : Option String) (path : String) (s : ValidationState) : ValidationState :=
  match clockId with
  | none => s
  | some clockId =>
      s.ensure (hasClock program clockId) "unknown_program_clock" path
        ("Program clock " ++ quoted clockId ++ " is not defined.")

/-- Selection outputs the legs refer to. -/
def AllocationStatement.outputRefs (a : AllocationStatement) : List String :=
  a.legs.filterMap (fun leg =>
    match leg.target.kind with
    | .selection ref => some ref
    | _ => none)

def outputDiagnostics (path : String) (available : List String) :
    Nat → List AllocationLeg → List SemanticDiagnostic
  | _, [] => []
  | index, leg :: rest =>
      (match leg.target.kind with
        | .selection ref =>
            if ref ∈ available then []
            else [⟨"unknown_selection_output", indexed (path ++ ".legs") index ++ ".target.ref",
              "Allocation must reference a Selection output defined earlier in program order."⟩]
        | _ => []) ++ outputDiagnostics path available (index + 1) rest

/-- A score-derived method needs the ranking type it divides by. -/
def scoreDiagnostics (a : AllocationStatement) (path : String) (type : Option SemanticType) :
    List SemanticDiagnostic :=
  match a.method, type with
  | .proportionalScore, some type =>
      if type.quantity ≠ .score then
        [⟨"proportional_allocation_requires_score", path ++ ".method",
          "Proportional allocation requires an explicit Score-valued Selection ranking."⟩]
      else []
  | .inverseVolatility, some type =>
      if !(type.refinement.getD "").startsWith "realized_volatility:" then
        [⟨"inverse_volatility_requires_volatility", path ++ ".method",
          "Inverse-volatility allocation requires a realized-volatility Selection ranking."⟩]
      else []
  | _, _ => []

def checkAllocation (a : AllocationStatement) (path : String) (available : List String)
    (s : ValidationState) : ValidationState :=
  let clocked := checkClock program a.clockId (path ++ ".clock_id") s
  clocked.report (outputDiagnostics path available 0 a.legs ++
    scoreDiagnostics a path (clocked.selectionOutputTypes.get?
      ((a.legs.head?.bind (fun leg => leg.target.kind.ref)).getD "")))

def registerStatement (semanticId path : String) (s : ValidationState) : ValidationState :=
  { s.ensure (semanticId ∉ s.statementIds) "duplicate_program_semantic_id" path
      "Program semantic ids must be unique." with
    statementIds := semanticId :: s.statementIds }

def Selection.values (selection : Selection) : List ValueExpression :=
  selection.ranking :: (selection.eligibility.map Condition.values).getD []

def ValueExpression.scoreConditions : ValueExpression → List Condition
  | .score _ _ conditionTerms _ => conditionTerms.map ConditionPointTerm.condition
  | _ => []

def domainDiagnostics (universeId path : String) : Nat → List ValueExpression → List SemanticDiagnostic
  | _, [] => []
  | index, value :: rest =>
      (value.crossDomains.filter (fun domain => domain ≠ universeId)).map (fun _ =>
        ⟨"cross_section_domain_mismatch", indexed (path ++ ".selection.values") index,
          "Cross-sectional values inside a Selection must use its explicit universe domain."⟩) ++
        domainDiagnostics universeId path (index + 1) rest

def checkScoreConditions (path : String) (bindingId : String) :
    Nat → List Condition → ValidationState → ValidationState
  | _, [], s => s
  | index, c :: rest, s =>
      checkScoreConditions path bindingId (index + 1) rest
        (checkCondition program c (indexed (path ++ ".selection.ranking.condition_terms") index)
          .eligibility (some bindingId) s)

def checkRanking (s : SelectionStatement) (path : String) (v : ValidationState) : ValidationState :=
  match inferProgramValueType (some s.selection.binding.id) s.selection.ranking with
  | .error e => v.report [e.diagnostic (path ++ ".selection.ranking")]
  | .ok type =>
      let typed : ValidationState :=
        { v with selectionOutputTypes := v.selectionOutputTypes.set s.outputId type }
      typed.ensure ((type.dtype = .decimal ∨ type.dtype = .integer) ∧ type.axes = [])
        "ranking_not_candidate_scalar" (path ++ ".selection.ranking")
        "Selection ranking must yield one comparable scalar per Candidate."

/-- Declare a Selection output, which must be new. -/
def declareOutput (outputId path : String) (v : ValidationState) : ValidationState :=
  { v.ensure (outputId ∉ v.selectionOutputs) "duplicate_selection_output" (path ++ ".output_id")
      "Selection output ids must be unique." with
    selectionOutputs := outputId :: v.selectionOutputs }

def checkSelection (s : SelectionStatement) (path : String) (v : ValidationState) :
    ValidationState :=
  let clocked := checkClock program s.clockId (path ++ ".clock_id") v
  let domains := (declareOutput s.outputId path clocked).report
    (domainDiagnostics s.selection.universeId path 0 s.selection.values)
  let eligible := checkOptional program s.selection.eligibility (path ++ ".selection.eligibility")
    .eligibility (some s.selection.binding.id) domains
  let scored := checkScoreConditions program path s.selection.binding.id 0
    s.selection.ranking.scoreConditions eligible
  checkRanking s path scored

def declareEvent (eventId path : String) (v : ValidationState) : ValidationState :=
  { v.ensure (eventId ∉ v.eventIds) "duplicate_event_id" (path ++ ".event.semantic_id")
      "Event semantic ids must be unique." with
    eventIds := eventId :: v.eventIds }

def checkEvent (event : EventDefinition) (path : String) (v : ValidationState) : ValidationState :=
  let clocked := checkClock program (some event.clockId) (path ++ ".event.clock_id") v
  checkOptional program event.condition (path ++ ".event.condition") .predicate none
    (declareEvent event.semanticId path clocked)

def checkRemember (s : RememberValueStatement) (path : String) (v : ValidationState) :
    ValidationState :=
  let clocked := checkClock program s.clockId (path ++ ".clock_id") v
  { clocked.ensure (s.memoryId ∉ clocked.memories) "duplicate_memory_id" (path ++ ".memory_id")
      "Remembered value ids must be unique Program addresses." with
    memories := s.memoryId :: clocked.memories }

def checkTransition (t : StateTransition) (path : String) (v : ValidationState) : ValidationState :=
  let clocked := checkClock program t.clockId (path ++ ".transition.clock_id") v
  (checkCondition program t.when (path ++ ".transition.when") .predicate none clocked).ensure
    (program.initialState.contains t.stateKey) "undeclared_state" (path ++ ".transition.state_key")
    "State transitions require an explicitly initialized state key."

/-- Register and check an allocation that belongs to a guarded policy. -/
def checkRule (a : AllocationStatement) (path : String) (available : List String)
    (v : ValidationState) : ValidationState :=
  checkAllocation program a path available (registerStatement a.semanticId path v)

def checkOverrides (path : String) (available : List String) :
    Nat → List OverrideRule → ValidationState → ValidationState
  | _, [], v => v
  | index, rule :: rest, v =>
      let entry := indexed (path ++ ".overrides") index
      checkOverrides path available (index + 1) rest
        (checkRule program rule.action (entry ++ ".action") available
          (checkCondition program rule.when (entry ++ ".when") .predicate none v))

def checkFallback (fallback : Option AllocationStatement) (path : String)
    (available : List String) (v : ValidationState) : ValidationState :=
  match fallback with
  | none => v
  | some a => checkRule program a path available v

def checkGuarded (s : GuardedAllocationStatement) (path : String) (available : List String)
    (v : ValidationState) : ValidationState :=
  let guarded := checkOptional program s.guard (path ++ ".guard") .predicate none v
  let prioritized := guarded.ensure (decide (s.overrides.map OverrideRule.priority).Nodup)
    "duplicate_override_priority" (path ++ ".overrides")
    "Override priorities must be unique; highest priority wins."
  let primary := checkRule program s.primary (path ++ ".primary") available prioritized
  let overridden := checkOverrides program path available 0 s.overrides primary
  checkFallback program s.fallback (path ++ ".fallback") available overridden

mutual

def visit : ProgramStatement → String → List String → ValidationState → ValidationState
  | .unresolved s, path, _, v =>
      (registerStatement s.semanticId path v).report [⟨"unresolved_semantics", path,
        s.category ++ ": " ++ s.reason ++ ". Fuzzy text remains draft-only."⟩]
  | .select s, path, _, v => checkSelection program s path (registerStatement s.semanticId path v)
  | .allocate s, path, available, v =>
      checkAllocation program s path available (registerStatement s.semanticId path v)
  | .control head thenStatements otherwiseStatements, path, available, v =>
      let clocked := checkClock program head.clockId (path ++ ".clock_id")
        (registerStatement head.semanticId path v)
      let checked := checkCondition program head.condition (path ++ ".condition") .predicate none
        clocked
      let visited := visitAll thenStatements (path ++ ".then") 0 available checked
      visitAll otherwiseStatements (path ++ ".otherwise") 0 available visited
  | .onEvent semanticId event body, path, available, v =>
      visitAll body (path ++ ".statements") 0 available
        (checkEvent program event path (registerStatement semanticId path v))
  | .rememberValue s, path, _, v =>
      checkRemember program s path (registerStatement s.semanticId path v)
  | .transition semanticId t, path, _, v =>
      checkTransition program t path (registerStatement semanticId path v)
  | .guardedAllocation s, path, available, v =>
      checkGuarded program s path available (registerStatement s.semanticId path v)

def visitAll : List ProgramStatement → String → Nat → List String → ValidationState →
    ValidationState
  | [], _, _, _, v => v
  | statement :: rest, path, index, available, v =>
      visitAll rest path (index + 1) (statement.outputsAfter available)
        (visit statement (indexed path index) available v)

end

def visitProgram : ValidationState :=
  visitAll program program.statements "program.statements" 0 [] {}

end Visit

section Values

/-- Values a statement evaluates by itself. -/
def ProgramStatement.ownValues : ProgramStatement → List ValueExpression
  | .select s => s.selection.values
  | .control head _ _ => head.condition.values
  | .onEvent _ event _ => (event.condition.map Condition.values).getD []
  | .transition _ t => t.when.values
  | .guardedAllocation s =>
      (s.guard.map Condition.values).getD [] ++ s.overrides.flatMap (fun rule => rule.when.values)
  | .rememberValue s => [s.value]
  | .allocate _ | .unresolved _ => []

mutual

/-- Values of all statements. The traversal is a stack, last statement first. -/
def statementValues : ProgramStatement → List ValueExpression
  | .control head thenStatements otherwiseStatements =>
      (ProgramStatement.control head thenStatements otherwiseStatements).ownValues ++
        (statementsValues otherwiseStatements ++ statementsValues thenStatements)
  | .onEvent id event body =>
      (ProgramStatement.onEvent id event body).ownValues ++ statementsValues body
  | .select s => (ProgramStatement.select s).ownValues
  | .transition id t => (ProgramStatement.transition id t).ownValues
  | .guardedAllocation s => (ProgramStatement.guardedAllocation s).ownValues
  | .rememberValue s => (ProgramStatement.rememberValue s).ownValues
  | .allocate _ | .unresolved _ => []

def statementsValues : List ProgramStatement → List ValueExpression
  | [] => []
  | statement :: rest => statementsValues rest ++ statementValues statement

end

def programValues (program : SemanticProgram) : List ValueExpression :=
  statementsValues program.statements

variable (program : SemanticProgram) (v : ValidationState)

/-- References of one value to Program addresses. -/
def referenceDiagnostics : ValueExpression → List SemanticDiagnostic
  | .crossSectional id source _ _ _ _ | .crossSectionalAggregate id source _ _ _ =>
      if source.dailyNodes.any (fun node => node.attrs.subjectKind = some .candidate) then []
      else [⟨"cross_section_requires_candidate", id,
        "Rank/percentile/quantile/bucket requires a Candidate source."⟩]
  | .eventRelative id event _ _ =>
      if event ∈ v.eventIds then []
      else [⟨"unknown_event_reference", id,
        "Event-relative Values must reference an Event declared in the Program."⟩]
  | .barsSinceEvent id event | .timeSinceEvent id event =>
      if event ∈ v.eventIds then []
      else [⟨"unknown_event_reference", id,
        "Bars-since-Event Values must reference a declared Event."⟩]
  | .barsSinceState id key | .timeSinceState id key =>
      if program.initialState.contains key then []
      else [⟨"undeclared_state", id, "Bars-since-State Values require an initialized state key."⟩]
  | .rememberedValue id memory _ _ _ =>
      if memory ∈ v.memories then []
      else [⟨"unknown_memory_reference", id,
        "Remembered Values must reference a declared memory address."⟩]
  | .clockedValue id _ clockId =>
      if hasClock program clockId then []
      else [⟨"unknown_program_clock", id, "Clocked Values require a declared Program clock."⟩]
  | _ => []

/-- The maintained provider serves adjusted closes. -/
def providerDiagnostics (nodes : List DailyValueNode) : List SemanticDiagnostic :=
  nodes.filterMap (fun node =>
    match node with
    | .observe attrs field basis =>
        if field = .close ∧ basis = .adjusted then none
        else some ⟨"provider_capability_unavailable", attrs.semanticId,
          "The maintained provider supports adjusted close only."⟩
    | _ => none)

def valueDiagnostics : List SemanticDiagnostic :=
  (programValues program).flatMap (fun value =>
    referenceDiagnostics program v value ++ providerDiagnostics value.dailyNodes)

def windowDiagnostics : List SemanticDiagnostic :=
  (v.eventWindows.filter (fun window => window.1 ∉ v.eventIds)).map (fun window =>
    ⟨"unknown_event_reference", window.2,
      "Event window references undeclared Event " ++ quoted window.1 ++ "."⟩)

def executableIds : List String :=
  v.statementIds ++ v.eventIds ++ v.selectionOutputs ++ v.memories ++ v.conditionIds ++
    (programValues program).flatMap ValueExpression.semanticIds

def formalizationDiagnostics : Nat → List FormalizationProvenance → List SemanticDiagnostic
  | _, [] => []
  | index, f :: rest =>
      let path := indexed "program.formalizations" index
      (if f.unresolved then
        [⟨"unresolved_formalization", path,
          "The original phrase remains non-executable: " ++ f.sourcePhrase⟩] else []) ++
      (f.semanticIds.filter (fun id => id ∉ executableIds program v)).map (fun id =>
        ⟨"unknown_formalized_semantic_id", path,
          "Formalization points to unknown semantic id " ++ quoted id ++ "."⟩) ++
      formalizationDiagnostics (index + 1) rest

end Values

def validateProgramV2 (program : SemanticProgram) : List SemanticDiagnostic :=
  let v := visitProgram program
  identityDiagnostics program ++ v.diagnostics ++ valueDiagnostics program v ++
    windowDiagnostics v ++ formalizationDiagnostics program v 0 program.formalizations

/-- Nothing is reported. -/
def Accepted (program : SemanticProgram) : Prop := validateProgramV2 program = []

instance (program : SemanticProgram) : Decidable (Accepted program) :=
  inferInstanceAs (Decidable (validateProgramV2 program = []))

end RuleTrade
