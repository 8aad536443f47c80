import RuleTrade.Strategy.ProgramValidation

/-! The strategy envelope around a Program: asset sets, groups, the operator
lock, and the older single Selection. -/

namespace RuleTrade

open Library

/-- An authored set of symbols, which may still be empty. -/
structure AssetSet where
  id : String
  assets : List String
  assets_unique : assets.Nodup := by decide

structure Group where
  id : String
  name : String
  assetSetRef : String
  deriving DecidableEq, Repr

/-- Asset sets and the groups over them. -/
structure StrategyDefinitions where
  assetSets : List AssetSet
  groups : List Group
  assetSets_nonempty : assetSets ≠ []
  groups_known : ∀ group ∈ groups, group.assetSetRef ∈ assetSets.map AssetSet.id

/-- A persisted strategy: a Program, or the older single Selection. -/
structure CanonicalStrategy where
  name : String
  definitions : StrategyDefinitions
  operatorLock : Dict String String
  selection : Option Selection := none
  predicate : Option Condition := none
  program : Option SemanticProgram := none
  operatorLock_compare : operatorLock.contains "compare" = true
  has_semantics : selection.isSome = true ∨ program.isSome = true

section Validation

/-- Diagnostics of the older single Selection. -/
def selectionDiagnostics (definitions : StrategyDefinitions) (s : Selection) :
    List SemanticDiagnostic :=
  (match s.eligibility with
    | none => []
    | some eligibility => validateCondition .eligibility (some s.binding.id) eligibility) ++
  (match inferProgramValueType (some s.binding.id) s.ranking with
    | .error e => [e.diagnostic "selection.ranking"]
    | .ok type =>
        if (type.dtype ≠ .decimal ∧ type.dtype ≠ .integer) ∨ type.axes ≠ [] then
          [⟨"ranking_not_comparable", "selection.ranking",
            "Ranking must yield one comparable scalar per Candidate."⟩]
        else []) ++
  (if s.universeId ∉ definitions.groups.map Group.id ++ definitions.assetSets.map AssetSet.id then
    [⟨"unknown_selection_universe", "selection.universe_id",
      "Selection FROM must reference an explicit AssetSet or static Group."⟩]
  else [])

/-- Values of the envelope, outside any Program. -/
def CanonicalStrategy.envelopeValues (strategy : CanonicalStrategy) : List ValueExpression :=
  (match strategy.selection with
    | none => []
    | some s => s.ranking :: (s.eligibility.map Condition.values).getD []) ++
  (strategy.predicate.map Condition.values).getD []

/-- What a provider or the definitions lack for a daily node. -/
def capabilityDiagnostics (definitions : StrategyDefinitions) (node : DailyValueNode) :
    List SemanticDiagnostic :=
  (match node with
    | .observe attrs field basis =>
        if field = .close ∧ basis = .adjusted then []
        else [⟨"provider_capability_unavailable", attrs.semanticId,
          "The maintained provider supports adjusted close only; raw OHLC and Volume are unavailable."⟩]
    | _ => []) ++
  (if node.attrs.subjectKind = some .groupMembers ∧
      node.attrs.subjectId ∉ definitions.groups.map (fun group => some group.id) then
    [⟨"unknown_static_group", node.semanticId,
      "Group-member Values must reference a persisted static Group."⟩]
  else [])

def ValueExpression.ownNodes : ValueExpression → List DailyValueNode
  | .daily node => node.nodes
  | _ => []

def validateStrategyV2 (strategy : CanonicalStrategy) : List SemanticDiagnostic :=
  (match strategy.selection with
    | none => []
    | some s => selectionDiagnostics strategy.definitions s) ++
  (match strategy.predicate with
    | none => []
    | some predicate => validateCondition .predicate none predicate) ++
  (strategy.envelopeValues.flatMap ValueExpression.ownNodes).flatMap
    (capabilityDiagnostics strategy.definitions) ++
  (match strategy.program with
    | none => []
    | some program => validateProgramV2 program)

end Validation

/-- Assets of the set a group refers to; none when either is missing. The
later of two definitions with one id wins. -/
def StrategyDefinitions.groupAssets (definitions : StrategyDefinitions) (groupId : String) :
    List String :=
  match definitions.groups.reverse.find? (fun group => group.id = groupId) with
  | none => []
  | some group =>
      match definitions.assetSets.reverse.find? (fun set => set.id = group.assetSetRef) with
      | none => []
      | some set => set.assets

/-- The same, where the earlier of two definitions with one id wins. -/
def StrategyDefinitions.firstGroupAssets (definitions : StrategyDefinitions) (groupId : String) :
    List String :=
  match definitions.groups.find? (fun group => group.id = groupId) with
  | none => []
  | some group =>
      match definitions.assetSets.find? (fun set => set.id = group.assetSetRef) with
      | none => []
      | some set => set.assets

theorem StrategyDefinitions.groupAssets_nodup (definitions : StrategyDefinitions)
    (groupId : String) : (definitions.groupAssets groupId).Nodup := by
  unfold groupAssets
  split
  · exact List.nodup_nil
  · split
    · exact List.nodup_nil
    · rename_i set _
      exact set.assets_unique

/-- One group over one asset set. -/
def StrategyDefinitions.ofGroup (groupId : String) (assets : List String) (hUnique : assets.Nodup) :
    StrategyDefinitions where
  assetSets := [⟨groupId ++ "-assets", assets, hUnique⟩]
  groups := [⟨groupId, groupId, groupId ++ "-assets"⟩]
  assetSets_nonempty := List.cons_ne_nil _ _
  groups_known := by
    intro group hGroup
    rw [List.mem_singleton.mp hGroup]
    exact List.mem_singleton_self _

/-- A strategy that is one Program. -/
def CanonicalStrategy.ofProgram (definitions : StrategyDefinitions) (program : SemanticProgram) :
    CanonicalStrategy where
  name := "strategy"
  definitions := definitions
  operatorLock := ⟨[("compare", "1")], List.nodup_singleton _⟩
  program := some program
  operatorLock_compare := rfl
  has_semantics := .inr rfl

/-- A strategy that is one older Selection. -/
def CanonicalStrategy.ofSelection (definitions : StrategyDefinitions) (selection : Selection) :
    CanonicalStrategy where
  name := "strategy"
  definitions := definitions
  operatorLock := ⟨[("compare", "1")], List.nodup_singleton _⟩
  selection := some selection
  operatorLock_compare := rfl
  has_semantics := .inl rfl

end RuleTrade
