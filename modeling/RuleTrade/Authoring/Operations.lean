import RuleTrade.Authoring.Drafts
import RuleTrade.Strategy.Relabelling

/-! Authoring operations that remove something or rename a selected Subgroup,
and their application to a whole strategy. Every guard looks at the part of the
Program its own operation thinks of. -/

namespace RuleTrade

open Library

inductive ProgramOperation where
  | renameProgramSubgroup (semanticId outputId : String)
  | removeProgramGroup (groupId : String)
  | removeProgramInvestment (investmentId : String)
  | removeProgramChoose (semanticId : String)
  | removeProgramStatement (semanticId : String)
  | removeProgramInvestmentAllocation (semanticId : String)
  deriving DecidableEq, Repr

def ProgramOperation.kind : ProgramOperation → String
  | .renameProgramSubgroup _ _ => "rename_program_subgroup"
  | .removeProgramGroup _ => "remove_program_group"
  | .removeProgramInvestment _ => "remove_program_investment"
  | .removeProgramChoose _ => "remove_program_choose"
  | .removeProgramStatement _ => "remove_program_statement"
  | .removeProgramInvestmentAllocation _ => "remove_program_investment_allocation"

/-- The operation takes something out of the strategy. -/
def ProgramOperation.Removes : ProgramOperation → Prop
  | .renameProgramSubgroup _ _ => False
  | _ => True

section Contents

def ProgramStatement.asSelection : ProgramStatement → Option SelectionStatement
  | .select s => some s
  | _ => none

def ProgramStatement.asAllocation : ProgramStatement → Option AllocationStatement
  | .allocate s => some s
  | _ => none

/-- Selections and allocations among statements, not looking below them. -/
def selectionsOf (statements : List ProgramStatement) : List SelectionStatement :=
  statements.filterMap ProgramStatement.asSelection

def allocationsOf (statements : List ProgramStatement) : List AllocationStatement :=
  statements.filterMap ProgramStatement.asAllocation

/-- Groups the legs target. -/
def AllocationStatement.groupRefs (a : AllocationStatement) : List String :=
  a.legs.filterMap (fun leg =>
    match leg.target.kind with
    | .group ref => some ref
    | _ => none)

end Contents

section Operations

/-- The definitions without a group, and without its asset set unless kept. -/
def DefinitionsDraft.withoutGroup (definitions : DefinitionsDraft) (group : Group)
    (keepAssets : Bool) : Except V2AuthoringError DefinitionsDraft :=
  let groups := definitions.groups.filter (fun item => item.id ≠ group.id)
  let assetSets :=
    if keepAssets then definitions.assetSets
    else definitions.assetSets.filter (fun item => item.id ≠ group.assetSetRef)
  match assetSets with
  | [] => .error ⟨"last_asset_set", "The Builder must retain one asset list.", ""⟩
  | first :: _ =>
      .ok {
        assetSets := assetSets
        groups := groups
        assetAxis := {
          domainId := match groups with
            | [] => first.id
            | remaining :: _ => remaining.id
          coordinatePolicy := "member_identity" } }

/-- Another group reads the same asset set. -/
def DefinitionsDraft.sharesAssets (definitions : DefinitionsDraft) (group : Group) : Bool :=
  definitions.groups.any (fun item =>
    item.id ≠ group.id && item.assetSetRef = group.assetSetRef)

def DefinitionsDraft.group? (definitions : DefinitionsDraft) (groupId : String) : Option Group :=
  definitions.groups.find? (fun item => item.id = groupId)

def removeProgramGroup (definitions : DefinitionsDraft) (program : SemanticProgram)
    (groupId : String) : Except V2AuthoringError DefinitionsDraft :=
  match definitions.group? groupId with
  | none => .error ⟨"group_not_found", "This Group no longer exists.", ""⟩
  | some group =>
      let statements := allProgramStatements program.statements
      if (selectionsOf statements).any (fun item => item.selection.universeId = group.id) then
        .error ⟨"group_in_use_by_choose",
          "Disconnect this Group's Choose operation before deleting the Group.", ""⟩
      else if (allocationsOf statements).any (fun item => group.id ∈ item.groupRefs) then
        .error ⟨"group_in_use_by_investment",
          "Disconnect Investments that target this Group before deleting it.", ""⟩
      else definitions.withoutGroup group (definitions.sharesAssets group)

/-- Only Selections at the root of the Program are looked at here. -/
def removeProgramInvestment (definitions : DefinitionsDraft) (program : SemanticProgram)
    (investmentId : String) : Except V2AuthoringError DefinitionsDraft :=
  match definitions.group? investmentId with
  | none => .error ⟨"investment_not_found", "This investment no longer exists.", ""⟩
  | some group =>
      if (selectionsOf program.statements).any (fun item =>
          item.selection.universeId = group.id) then
        .error ⟨"investment_in_use",
          "Remove this investment's selection before removing the investment.", ""⟩
      else definitions.withoutGroup group false

def removeProgramChoose (program : SemanticProgram) (semanticId : String) :
    Except V2AuthoringError SemanticProgram :=
  let statements := allProgramStatements program.statements
  match (selectionsOf statements).find? (fun item => item.semanticId = semanticId) with
  | none => .error ⟨"choose_not_found", "This Choose operation no longer exists.", ""⟩
  | some selected =>
      if (allocationsOf statements).any (fun item => selected.outputId ∈ item.outputRefs) then
        .error ⟨"subgroup_in_use_by_investment",
          "Disconnect Investments that target this selected Subgroup before deleting Choose.", ""⟩
      else (removeProgramStatement semanticId program).map Prod.fst

def removeProgramInvestmentAllocation (program : SemanticProgram) (semanticId : String) :
    Except V2AuthoringError SemanticProgram :=
  match program.statements.find? (fun item => item.semanticId = semanticId) with
  | some (.allocate _) => (removeProgramStatement semanticId program).map Prod.fst
  | _ => .error ⟨"investment_not_found",
      "This Investment allocation no longer exists or is policy-owned.", ""⟩

/-- Give the addressed Selection its new output, and every allocation the new
name where it used the old one. -/
def renameOutput (semanticId oldOutput newOutput : String) (statement : ProgramStatement) :
    ProgramStatement :=
  let rename := fun ref => if ref = oldOutput then newOutput else ref
  match statement with
  | .select s => if s.semanticId = semanticId then .select { s with outputId := newOutput }
      else .select s
  | .allocate s => .allocate (s.relabel rename)
  | .guardedAllocation s => .guardedAllocation (s.relabel rename)
  | statement => statement

def renameProgramSubgroup (program : SemanticProgram) (semanticId outputId : String) :
    Except V2AuthoringError SemanticProgram :=
  let selections := selectionsOf (allProgramStatements program.statements)
  match selections.find? (fun item => item.semanticId = semanticId) with
  | none => .error ⟨"choose_not_found", "This Choose operation no longer exists.", ""⟩
  | some selected =>
      if selections.any (fun item =>
          item.semanticId ≠ selected.semanticId && item.outputId = outputId) then
        .error ⟨"subgroup_exists", "This selected Subgroup name is already in use.", ""⟩
      else .ok (rewriteProgramStatements (fun statement =>
        some (renameOutput selected.semanticId selected.outputId outputId statement)) program)

def applyProgramOperation (strategy : StrategyDraft) (operation : ProgramOperation) :
    Except V2AuthoringError StrategyDraft :=
  match strategy.program with
  | none => .error ⟨"semantic_program_missing",
      operation.kind ++ " requires a Program-native Strategy.", ""⟩
  | some program =>
      match operation with
      | .renameProgramSubgroup semanticId outputId => do
          let renamed ← renameProgramSubgroup program semanticId outputId
          .ok { strategy with program := some renamed }
      | .removeProgramGroup groupId => do
          let definitions ← removeProgramGroup strategy.definitions program groupId
          .ok { strategy with definitions := definitions }
      | .removeProgramInvestment investmentId => do
          let definitions ← removeProgramInvestment strategy.definitions program investmentId
          .ok { strategy with definitions := definitions }
      | .removeProgramChoose semanticId => do
          let changed ← removeProgramChoose program semanticId
          .ok { strategy with program := some changed }
      | .removeProgramStatement semanticId => do
          let changed ← removeProgramStatement semanticId program
          .ok { strategy with program := some changed.1 }
      | .removeProgramInvestmentAllocation semanticId => do
          let changed ← removeProgramInvestmentAllocation program semanticId
          .ok { strategy with program := some changed }

structure ApplyV2AuthoringRequest where
  strategy : StrategyDraft
  expectedSourceHash : String
  operation : ProgramOperation

structure ApplyV2AuthoringResponse where
  strategy : StrategyDraft
  sourceHash : String

variable (strategyHash : StrategyDraft → String)

def applyV2Authoring (request : ApplyV2AuthoringRequest) :
    Except V2AuthoringError ApplyV2AuthoringResponse :=
  if strategyHash request.strategy ≠ request.expectedSourceHash then
    .error ⟨"stale_authoring_source", "Strategy changed after this editor request was created.", ""⟩
  else do
    let candidate ← applyProgramOperation request.strategy request.operation
    match candidate.validate with
    | [] => .ok ⟨candidate, strategyHash candidate⟩
    | first :: _ => .error ⟨first.code, first.message, first.path⟩

end Operations

end RuleTrade
