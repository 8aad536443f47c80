import RuleTrade.Strategy.Canonical
import RuleTrade.Strategy.Acceptance

/-! Strategies as authoring operations build them: copies that no model
validator has looked at, and the statement traversals the operations share. -/

namespace RuleTrade

open Library

/-- The axis of Selection domains. Its name is always `asset`. -/
structure AssetAxis where
  domainId : String
  coordinatePolicy : String := "stable_identity"
  deriving DecidableEq, Repr

/-- Definitions of a copy. Unlike `StrategyDefinitions` they may dangle. -/
structure DefinitionsDraft where
  assetSets : List AssetSet
  groups : List Group
  assetAxis : AssetAxis

/-- A strategy under authoring. -/
structure StrategyDraft where
  name : String
  definitions : DefinitionsDraft
  operatorLock : Dict String String
  selection : Option Selection := none
  predicate : Option Condition := none
  program : Option SemanticProgram := none

/-- A parsed strategy as the source of an operation. -/
def CanonicalStrategy.draft (strategy : CanonicalStrategy) (axis : AssetAxis) : StrategyDraft where
  name := strategy.name
  definitions := ⟨strategy.definitions.assetSets, strategy.definitions.groups, axis⟩
  operatorLock := strategy.operatorLock
  selection := strategy.selection
  predicate := strategy.predicate
  program := strategy.program

structure V2AuthoringError where
  code : String
  message : String
  path : String := ""
  deriving DecidableEq, Repr

section Validation

/-- Diagnostics of the older single Selection of a draft. -/
def DefinitionsDraft.selectionDiagnostics (definitions : DefinitionsDraft) (s : Selection) :
    List SemanticDiagnostic :=
  (match s.eligibility with
    | none => []
    | some eligibility => validateCondition .eligibility (some s.binding.id) eligibility) ++
  (match inferProgramValueType (some s.binding.id) s.ranking with
    | .error e => [e.diagnostic "selection.ranking"]
    | .ok type =>
        if (type.dtype ≠ .decimal ∧ type.dtype ≠ .integer) ∨ type.axes ≠ [] then
          [⟨"ranking_not_comparable", "selection.ranking",
            "Ranking must yield one comparable scalar per Candidate."⟩]
        else []) ++
  (if s.universeId ∉ definitions.groups.map Group.id ++ definitions.assetSets.map AssetSet.id then
    [⟨"unknown_selection_universe", "selection.universe_id",
      "Selection FROM must reference an explicit AssetSet or static Group."⟩]
  else [])

def DefinitionsDraft.hasGroup (definitions : DefinitionsDraft) (groupId : Option String) : Bool :=
  definitions.groups.any (fun group => some group.id = groupId)

def DefinitionsDraft.capabilityDiagnostics (definitions : DefinitionsDraft)
    (node : DailyValueNode) : List SemanticDiagnostic :=
  (match node with
    | .observe attrs field basis =>
        if field = .close ∧ basis = .adjusted then []
        else [⟨"provider_capability_unavailable", attrs.semanticId,
          "The maintained provider supports adjusted close only; raw OHLC and Volume are unavailable."⟩]
    | _ => []) ++
  (if node.attrs.subjectKind = some .groupMembers ∧
      definitions.hasGroup node.attrs.subjectId = false then
    [⟨"unknown_static_group", node.semanticId,
      "Group-member Values must reference a persisted static Group."⟩]
  else [])

/-- Values of the envelope, outside any Program. -/
def StrategyDraft.envelopeValues (strategy : StrategyDraft) : List ValueExpression :=
  (match strategy.selection with
    | none => []
    | some s => s.ranking :: (s.eligibility.map Condition.values).getD []) ++
  (strategy.predicate.map Condition.values).getD []

/-- `validate_strategy_v2` on a copy. -/
def StrategyDraft.validate (strategy : StrategyDraft) : List SemanticDiagnostic :=
  (match strategy.selection with
    | none => []
    | some s => strategy.definitions.selectionDiagnostics s) ++
  (match strategy.predicate with
    | none => []
    | some predicate => validateCondition .predicate none predicate) ++
  (strategy.envelopeValues.flatMap ValueExpression.ownNodes).flatMap
    strategy.definitions.capabilityDiagnostics ++
  (match strategy.program with
    | none => []
    | some program => validateProgramV2 program)

theorem StrategyDraft.accepted_of_validate {strategy : StrategyDraft} {program : SemanticProgram}
    (hProgram : strategy.program = some program) (h : strategy.validate = []) :
    Accepted program := by
  unfold validate at h
  rw [hProgram] at h
  exact (List.append_eq_nil_iff.mp h).2

end Validation

section Traversal

mutual

/-- A statement and every statement under it, with policy-owned allocations. -/
def ProgramStatement.flatten : ProgramStatement → List ProgramStatement
  | .control head thenStatements otherwiseStatements =>
      .control head thenStatements otherwiseStatements ::
        (allProgramStatements thenStatements ++ allProgramStatements otherwiseStatements)
  | .onEvent id event body => .onEvent id event body :: allProgramStatements body
  | .guardedAllocation s => .guardedAllocation s :: s.actions.map ProgramStatement.allocate
  | .select s => [.select s]
  | .allocate s => [.allocate s]
  | .transition id t => [.transition id t]
  | .rememberValue s => [.rememberValue s]
  | .unresolved s => [.unresolved s]

def allProgramStatements : List ProgramStatement → List ProgramStatement
  | [] => []
  | statement :: rest => statement.flatten ++ allProgramStatements rest

end

/-- The same statement over other bodies. -/
def ProgramStatement.withBodies : ProgramStatement → List (List ProgramStatement) → ProgramStatement
  | .control head _ _, [thenStatements, otherwiseStatements] =>
      .control head thenStatements otherwiseStatements
  | .onEvent id event _, [body] => .onEvent id event body
  | statement, _ => statement

section Rewrite

variable (rewrite : ProgramStatement → Option ProgramStatement)

mutual

/-- Rewrite a statement and then its bodies, dropping what `rewrite` refuses.
The rewrites in use leave bodies alone, so the visit goes down the bodies the
statement came with. -/
def ProgramStatement.rewritten : ProgramStatement → Option ProgramStatement
  | .control head thenStatements otherwiseStatements =>
      (rewrite (.control head thenStatements otherwiseStatements)).map (fun current =>
        current.withBodies [rewrittenStatements thenStatements,
          rewrittenStatements otherwiseStatements])
  | .onEvent id event body =>
      (rewrite (.onEvent id event body)).map (fun current =>
        current.withBodies [rewrittenStatements body])
  | .select s => rewrite (.select s)
  | .allocate s => rewrite (.allocate s)
  | .transition id t => rewrite (.transition id t)
  | .rememberValue s => rewrite (.rememberValue s)
  | .guardedAllocation s => rewrite (.guardedAllocation s)
  | .unresolved s => rewrite (.unresolved s)

def rewrittenStatements : List ProgramStatement → List ProgramStatement
  | [] => []
  | statement :: rest =>
      match statement.rewritten with
      | none => rewrittenStatements rest
      | some current => current :: rewrittenStatements rest

end

def rewriteProgramStatements (program : SemanticProgram) : SemanticProgram :=
  { program with statements := rewrittenStatements rewrite program.statements }

end Rewrite

section Removal

variable (semanticId : String)

mutual

/-- Statements a removal meets under the address. It goes below none of them. -/
def ProgramStatement.addressed : ProgramStatement → List ProgramStatement
  | .control head thenStatements otherwiseStatements =>
      if head.semanticId = semanticId then [.control head thenStatements otherwiseStatements]
      else addressedStatements thenStatements ++ addressedStatements otherwiseStatements
  | .onEvent id event body =>
      if id = semanticId then [.onEvent id event body] else addressedStatements body
  | .select s => if s.semanticId = semanticId then [.select s] else []
  | .allocate s => if s.semanticId = semanticId then [.allocate s] else []
  | .transition id t => if id = semanticId then [.transition id t] else []
  | .rememberValue s => if s.semanticId = semanticId then [.rememberValue s] else []
  | .guardedAllocation s => if s.semanticId = semanticId then [.guardedAllocation s] else []
  | .unresolved s => if s.semanticId = semanticId then [.unresolved s] else []

def addressedStatements : List ProgramStatement → List ProgramStatement
  | [] => []
  | statement :: rest => statement.addressed ++ addressedStatements rest

end

/-- Drop the addressed statement. A branch it leaves empty is not looked at:
the parsed program is handed on as it is. -/
def removeProgramStatement (program : SemanticProgram) :
    Except V2AuthoringError (SemanticProgram × ProgramStatement) :=
  match addressedStatements semanticId program.statements with
  | [] => .error ⟨"program_statement_not_found",
      "No Program statement has semantic id " ++ quoted semanticId ++ ".", ""⟩
  | [removed] => .ok (rewriteProgramStatements (fun statement =>
      if statement.semanticId = semanticId then none else some statement) program, removed)
  | _ => .error ⟨"ambiguous_program_address",
      "Program semantic id " ++ quoted semanticId ++ " is not unique.", ""⟩

end Removal

end Traversal

end RuleTrade
