import RuleTrade.Strategy.Acceptance

/-! What a clean inspection of identities says about a document: addressed
objects with one semantic id have one content, and statements have distinct
ids. -/

namespace RuleTrade

open Library

section Documents

mutual

/-- Addressed objects of a document, each with its other fields. -/
def addressedObjects : Json → List (String × List (String × Json))
  | .object fields =>
      ((semanticIdOf fields).map (fun id =>
        (id, fields.filter (fun field => field.1 ≠ "semantic_id")))).toList ++
        addressedFields fields
  | .array items => addressedItems items
  | _ => []

def addressedFields : List (String × Json) → List (String × List (String × Json))
  | [] => []
  | (_, item) :: rest => addressedObjects item ++ addressedFields rest

def addressedItems : List Json → List (String × List (String × Json))
  | [] => []
  | item :: rest => addressedObjects item ++ addressedItems rest

end

theorem mem_addressedFields {fields : List (String × Json)} {object : String × List (String × Json)} :
    object ∈ addressedFields fields ↔ ∃ field ∈ fields, object ∈ addressedObjects field.2 := by
  induction fields with
  | nil => simp [addressedFields]
  | cons field rest ih => simp [addressedFields, ih]

theorem mem_addressedItems {items : List Json} {object : String × List (String × Json)} :
    object ∈ addressedItems items ↔ ∃ item ∈ items, object ∈ addressedObjects item := by
  induction items with
  | nil => simp [addressedItems]
  | cons item rest ih => simp [addressedItems, ih]

/-- Objects under a field are objects of the document. -/
theorem addressedObjects_field {fields : List (String × Json)} (key : String) {item : Json}
    (h : (key, item) ∈ fields) : addressedObjects item ⊆ addressedObjects (.object fields) := by
  intro object hObject
  exact List.mem_append_right _ (mem_addressedFields.mpr ⟨_, h, hObject⟩)

theorem addressedObjects_item {items : List Json} {item : Json} (h : item ∈ items) :
    addressedObjects item ⊆ addressedObjects (.array items) := by
  intro object hObject
  exact mem_addressedItems.mpr ⟨item, h, hObject⟩

end Documents

section Inspection

variable {s : IdentityState}

theorem register_clean {id path : String} {content : ContentHash}
    (h : (s.register id content path).diagnostics = []) : s.diagnostics = [] := by
  unfold IdentityState.register at h
  split at h
  · exact h
  · split_ifs at h
    · exact (List.append_eq_nil_iff.mp h).1
    · exact h

mutual

theorem inspectIdentity_clean : ∀ (item : Json) (path : String) (s : IdentityState),
    (inspectIdentity item path s).diagnostics = [] → s.diagnostics = []
  | .object fields, path, s, h => by
      simp only [inspectIdentity] at h
      have hRegistered := inspectFields_clean fields path _ h
      split at hRegistered
      · exact hRegistered
      · exact register_clean hRegistered
  | .array items, path, s, h => inspectItems_clean items path 0 s h
  | .null, path, s, h => h
  | .bool _, path, s, h => h
  | .number _, path, s, h => h
  | .text _, path, s, h => h

theorem inspectFields_clean : ∀ (fields : List (String × Json)) (path : String) (s : IdentityState),
    (inspectFields fields path s).diagnostics = [] → s.diagnostics = []
  | [], _, _, h => h
  | (key, item) :: rest, path, s, h =>
      inspectIdentity_clean item (path ++ "." ++ key) s (inspectFields_clean rest path _ h)

theorem inspectItems_clean : ∀ (items : List Json) (path : String) (index : Nat)
    (s : IdentityState), (inspectItems items path index s).diagnostics = [] → s.diagnostics = []
  | [], _, _, _, h => h
  | item :: rest, path, index, s, h =>
      inspectIdentity_clean item (indexed path index) s (inspectItems_clean rest path _ _ h)

end

/-- The content the state has under an address. -/
def IdentityState.Knows (s : IdentityState) (id : String) (content : ContentHash) : Prop :=
  ∃ path, s.identities.get? id = some (content, path)

theorem register_knows {id path : String} {content : ContentHash}
    (h : (s.register id content path).diagnostics = []) :
    (s.register id content path).Knows id content := by
  unfold IdentityState.register at h ⊢
  split
  · exact ⟨path, Dict.get?_set_self _ _ _⟩
  · rename_i known first hKnown
    simp only [hKnown] at h
    split_ifs at h with hDiffer
    · exact absurd (List.append_eq_nil_iff.mp h).2 (List.cons_ne_nil _ _)
    · rw [if_neg hDiffer]
      exact ⟨path, Dict.get?_set_self _ _ _⟩

theorem IdentityState.Knows.register {id other path : String} {content known : ContentHash}
    (hKnown : s.Knows other known) (h : (s.register id content path).diagnostics = []) :
    (s.register id content path).Knows other known := by
  by_cases hId : other = id
  · obtain ⟨first, hFirst⟩ := hKnown
    obtain ⟨path', hSame⟩ := register_knows h
    unfold IdentityState.register at h hSame ⊢
    rw [← hId, hFirst] at h hSame ⊢
    simp only at h hSame ⊢
    split_ifs at h hSame ⊢ with hDiffer
    · exact ⟨first, hFirst⟩
    · rw [not_not.mp hDiffer]
      exact ⟨path', hSame⟩
  · obtain ⟨first, hFirst⟩ := hKnown
    refine ⟨first, ?_⟩
    unfold IdentityState.register
    split
    · exact (Dict.get?_set_of_ne hId).trans hFirst
    · split
      · exact hFirst
      · exact (Dict.get?_set_of_ne hId).trans hFirst

mutual

/-- A clean inspection keeps every known content and knows those it passed. -/
theorem inspectIdentity_knows : ∀ (item : Json) (path : String) (s : IdentityState),
    (inspectIdentity item path s).diagnostics = [] →
    (∀ id content, s.Knows id content → (inspectIdentity item path s).Knows id content) ∧
    ∀ object ∈ addressedObjects item,
      (inspectIdentity item path s).Knows object.1 (semanticContentHash (.object object.2))
  | .object fields, path, s, h => by
      simp only [inspectIdentity] at h ⊢
      obtain ⟨hKeep, hFields⟩ := inspectFields_knows fields path _ h
      have hRegistered := inspectFields_clean fields path _ h
      cases hId : semanticIdOf fields with
      | none =>
          rw [hId] at hKeep hFields
          refine ⟨hKeep, fun object hObject => ?_⟩
          rw [addressedObjects, hId] at hObject
          exact hFields object hObject
      | some id =>
          rw [hId] at hKeep hFields hRegistered
          refine ⟨fun other known hKnown => hKeep _ _ (hKnown.register hRegistered), ?_⟩
          intro object hObject
          rw [addressedObjects, hId] at hObject
          rcases List.mem_append.mp hObject with hObject | hObject
          · rw [List.mem_singleton.mp hObject]
            exact hKeep _ _ (register_knows hRegistered)
          · exact hFields object hObject
  | .array items, path, s, h => inspectItems_knows items path 0 s h
  | .null, path, s, h => ⟨fun _ _ hKnown => hKnown, fun _ hObject => absurd hObject List.not_mem_nil⟩
  | .bool _, path, s, h =>
      ⟨fun _ _ hKnown => hKnown, fun _ hObject => absurd hObject List.not_mem_nil⟩
  | .number _, path, s, h =>
      ⟨fun _ _ hKnown => hKnown, fun _ hObject => absurd hObject List.not_mem_nil⟩
  | .text _, path, s, h =>
      ⟨fun _ _ hKnown => hKnown, fun _ hObject => absurd hObject List.not_mem_nil⟩

theorem inspectFields_knows : ∀ (fields : List (String × Json)) (path : String)
    (s : IdentityState), (inspectFields fields path s).diagnostics = [] →
    (∀ id content, s.Knows id content → (inspectFields fields path s).Knows id content) ∧
    ∀ object ∈ addressedFields fields,
      (inspectFields fields path s).Knows object.1 (semanticContentHash (.object object.2))
  | [], _, s, h => ⟨fun _ _ hKnown => hKnown, fun _ hObject => absurd hObject List.not_mem_nil⟩
  | (key, item) :: rest, path, s, h => by
      obtain ⟨hKeepRest, hRest⟩ := inspectFields_knows rest path _ h
      obtain ⟨hKeep, hItem⟩ := inspectIdentity_knows item (path ++ "." ++ key) s
        (inspectFields_clean rest path _ h)
      refine ⟨fun id content hKnown => hKeepRest _ _ (hKeep _ _ hKnown), fun object hObject => ?_⟩
      rcases List.mem_append.mp hObject with hObject | hObject
      · exact hKeepRest _ _ (hItem object hObject)
      · exact hRest object hObject

theorem inspectItems_knows : ∀ (items : List Json) (path : String) (index : Nat)
    (s : IdentityState), (inspectItems items path index s).diagnostics = [] →
    (∀ id content, s.Knows id content → (inspectItems items path index s).Knows id content) ∧
    ∀ object ∈ addressedItems items,
      (inspectItems items path index s).Knows object.1 (semanticContentHash (.object object.2))
  | [], _, _, s, h => ⟨fun _ _ hKnown => hKnown, fun _ hObject => absurd hObject List.not_mem_nil⟩
  | item :: rest, path, index, s, h => by
      obtain ⟨hKeepRest, hRest⟩ := inspectItems_knows rest path _ _ h
      obtain ⟨hKeep, hItem⟩ := inspectIdentity_knows item (indexed path index) s
        (inspectItems_clean rest path _ _ h)
      refine ⟨fun id content hKnown => hKeepRest _ _ (hKeep _ _ hKnown), fun object hObject => ?_⟩
      rcases List.mem_append.mp hObject with hObject | hObject
      · exact hKeepRest _ _ (hItem object hObject)
      · exact hRest object hObject

end

/-- Addressed objects with one semantic id have the same other fields. -/
theorem addressed_consistent {program : SemanticProgram} (h : identityDiagnostics program = [])
    {a b : String × List (String × Json)} (ha : a ∈ addressedObjects program.document)
    (hb : b ∈ addressedObjects program.document) (hId : a.1 = b.1) : a.2 = b.2 := by
  obtain ⟨-, hKnown⟩ := inspectIdentity_knows program.document "program" {} h
  obtain ⟨path, hPath⟩ := hKnown a ha
  obtain ⟨path', hPath'⟩ := hKnown b hb
  rw [hId, hPath'] at hPath
  have hContent := congrArg Prod.fst (Option.some.inj hPath)
  exact (Json.object.inj hContent).symm

theorem Accepted.identities {program : SemanticProgram} (h : Accepted program) :
    identityDiagnostics program = [] := by
  unfold Accepted validateProgramV2 at h
  simp only [List.append_eq_nil_iff] at h
  exact h.1.1.1.1

end Inspection

section Statements

variable {program : SemanticProgram}

mutual

/-- Ids of a statement, of the statements under it and of policy actions. -/
def ProgramStatement.statementIds : ProgramStatement → List String
  | .control head thenStatements otherwiseStatements =>
      head.semanticId :: (ProgramStatement.allStatementIds thenStatements ++
        ProgramStatement.allStatementIds otherwiseStatements)
  | .onEvent id _ body => id :: ProgramStatement.allStatementIds body
  | .guardedAllocation s => s.semanticId :: s.actions.map AllocationStatement.semanticId
  | .select s => [s.semanticId]
  | .allocate s => [s.semanticId]
  | .transition id _ => [id]
  | .rememberValue s => [s.semanticId]
  | .unresolved s => [s.semanticId]

def ProgramStatement.allStatementIds : List ProgramStatement → List String
  | [] => []
  | statement :: rest => statement.statementIds ++ ProgramStatement.allStatementIds rest

end

variable {v : ValidationState} {path : String} {available : List String}

@[simp] theorem report_statementIds {found : List SemanticDiagnostic} :
    (v.report found).statementIds = v.statementIds := rfl

@[simp] theorem ensure_statementIds {holds : Bool} {code message : String} :
    (v.ensure holds code path message).statementIds = v.statementIds := by
  cases holds <;> rfl

@[simp] theorem checkClock_statementIds (clockId : Option String) :
    (checkClock program clockId path v).statementIds = v.statementIds := by
  cases clockId <;> simp [checkClock]

@[simp] theorem checkCondition_statementIds (c : Condition) (role : SemanticRole)
    (bindingId : Option String) :
    (checkCondition program c path role bindingId v).statementIds = v.statementIds := rfl

@[simp] theorem checkOptional_statementIds (c : Option Condition) (role : SemanticRole)
    (bindingId : Option String) :
    (checkOptional program c path role bindingId v).statementIds = v.statementIds := by
  cases c <;> rfl

@[simp] theorem checkAllocation_statementIds (a : AllocationStatement) :
    (checkAllocation program a path available v).statementIds = v.statementIds := by
  simp [checkAllocation]

@[simp] theorem registerStatement_statementIds (id : String) :
    (registerStatement id path v).statementIds = id :: v.statementIds := rfl

@[simp] theorem checkRule_statementIds (a : AllocationStatement) :
    (checkRule program a path available v).statementIds = a.semanticId :: v.statementIds := by
  simp [checkRule]

@[simp] theorem checkOverrides_statementIds (rules : List OverrideRule) (index : Nat) :
    (checkOverrides program path available index rules v).statementIds =
      (rules.map (fun rule => rule.action.semanticId)).reverse ++ v.statementIds := by
  induction rules generalizing index v with
  | nil => rfl
  | cons rule rest ih => simp [checkOverrides, ih]

@[simp] theorem checkFallback_statementIds (fallback : Option AllocationStatement) :
    (checkFallback program fallback path available v).statementIds =
      fallback.toList.map AllocationStatement.semanticId ++ v.statementIds := by
  cases fallback <;> simp [checkFallback]

@[simp] theorem checkGuarded_statementIds (s : GuardedAllocationStatement) :
    (checkGuarded program s path available v).statementIds =
      (s.actions.map AllocationStatement.semanticId).reverse ++ v.statementIds := by
  cases hFallback : s.fallback <;>
    simp [checkGuarded, GuardedAllocationStatement.actions, hFallback, Function.comp_def]

@[simp] theorem checkScoreConditions_statementIds (bindingId : String)
    (conditions : List Condition) (index : Nat) :
    (checkScoreConditions program path bindingId index conditions v).statementIds =
      v.statementIds := by
  induction conditions generalizing index v with
  | nil => rfl
  | cons c rest ih => simp [checkScoreConditions, ih]

@[simp] theorem checkRanking_statementIds (s : SelectionStatement) :
    (checkRanking s path v).statementIds = v.statementIds := by
  unfold checkRanking
  split <;> simp

@[simp] theorem checkSelection_statementIds (s : SelectionStatement) :
    (checkSelection program s path v).statementIds = v.statementIds := by
  simp [checkSelection, declareOutput]

@[simp] theorem checkEvent_statementIds (event : EventDefinition) :
    (checkEvent program event path v).statementIds = v.statementIds := by
  simp [checkEvent, declareEvent]

mutual

/-- Statement ids are registered in the order of the visit. -/
theorem visit_statementIds (s : ProgramStatement) (path : String) (available : List String)
    (v : ValidationState) : (visit program s path available v).statementIds =
      s.statementIds.reverse ++ v.statementIds := by
  cases s with
  | control head thenStatements otherwiseStatements =>
      simp only [visit, visitAll_statementIds otherwiseStatements,
        visitAll_statementIds thenStatements, ProgramStatement.statementIds, List.reverse_append,
        List.reverse_cons, List.append_assoc, checkCondition_statementIds, checkClock_statementIds,
        registerStatement_statementIds, List.singleton_append]
  | onEvent id event body =>
      simp only [visit, visitAll_statementIds body, ProgramStatement.statementIds,
        checkEvent_statementIds, registerStatement_statementIds, List.reverse_cons,
        List.append_assoc, List.singleton_append]
  | guardedAllocation s => simp [visit, ProgramStatement.statementIds]
  | transition id t => simp [visit, checkTransition, ProgramStatement.statementIds]
  | rememberValue s => simp [visit, checkRemember, ProgramStatement.statementIds]
  | _ => simp [visit, ProgramStatement.statementIds]

theorem visitAll_statementIds (statements : List ProgramStatement) (path : String) (index : Nat)
    (available : List String) (v : ValidationState) :
    (visitAll program statements path index available v).statementIds =
      (ProgramStatement.allStatementIds statements).reverse ++ v.statementIds := by
  cases statements with
  | nil => simp [visitAll, ProgramStatement.allStatementIds]
  | cons s rest =>
      simp only [visitAll, visitAll_statementIds rest, visit_statementIds s,
        ProgramStatement.allStatementIds, List.reverse_append, List.append_assoc]

end

theorem registerStatement_nodup {id : String} (h : (registerStatement id path v).diagnostics = [])
    (hNodup : v.statementIds.Nodup) : (registerStatement id path v).statementIds.Nodup := by
  rw [registerStatement_statementIds, List.nodup_cons]
  exact ⟨by simpa using (ValidationState.ensure_clean h).2, hNodup⟩

theorem checkRule_nodup {a : AllocationStatement}
    (h : (checkRule program a path available v).diagnostics = [])
    (hNodup : v.statementIds.Nodup) :
    (checkRule program a path available v).statementIds.Nodup := by
  rw [checkRule, checkAllocation_statementIds]
  exact registerStatement_nodup (checkAllocation_clean h).1 hNodup

theorem checkOverrides_nodup {rules : List OverrideRule} {index : Nat}
    (h : (checkOverrides program path available index rules v).diagnostics = [])
    (hNodup : v.statementIds.Nodup) :
    (checkOverrides program path available index rules v).statementIds.Nodup := by
  induction rules generalizing index v with
  | nil => exact hNodup
  | cons rule rest ih =>
      rw [checkOverrides] at h ⊢
      apply ih h
      exact checkRule_nodup (checkOverrides_clean h).1 hNodup

theorem checkGuarded_nodup {s : GuardedAllocationStatement}
    (h : (checkGuarded program s path available v).diagnostics = [])
    (hNodup : v.statementIds.Nodup) :
    (checkGuarded program s path available v).statementIds.Nodup := by
  obtain ⟨hOverrides, -⟩ := checkFallback_clean h
  obtain ⟨hPrimary, -⟩ := checkOverrides_clean hOverrides
  have hKept := checkOverrides_nodup hOverrides (checkRule_nodup hPrimary (by simpa using hNodup))
  unfold checkGuarded at h ⊢
  cases hFallback : s.fallback with
  | none => exact hKept
  | some a =>
      rw [hFallback] at h
      exact checkRule_nodup h hKept

mutual

/-- A visit that reports nothing keeps the registered ids distinct. -/
theorem visit_nodup (s : ProgramStatement) {path : String} {available : List String}
    {v : ValidationState} (h : (visit program s path available v).diagnostics = [])
    (hNodup : v.statementIds.Nodup) :
    (visit program s path available v).statementIds.Nodup := by
  cases s with
  | unresolved s => exact absurd (ValidationState.report_clean h).2 (List.cons_ne_nil _ _)
  | select s =>
      rw [visit, checkSelection_statementIds]
      exact registerStatement_nodup (checkSelection_clean h).1 hNodup
  | allocate a =>
      rw [visit, checkAllocation_statementIds]
      exact registerStatement_nodup (checkAllocation_clean h).1 hNodup
  | control head thenStatements otherwiseStatements =>
      simp only [visit] at h ⊢
      have hThen := (visitAll_clean otherwiseStatements h).1
      have hChecked := (visitAll_clean thenStatements hThen).1
      have hRegistered := (checkClock_clean (checkCondition_clean hChecked).1).1
      apply visitAll_nodup otherwiseStatements h
      apply visitAll_nodup thenStatements hThen
      simpa using registerStatement_nodup hRegistered hNodup
  | onEvent id event body =>
      simp only [visit] at h ⊢
      have hRegistered := (checkEvent_clean (visitAll_clean body h).1).1
      apply visitAll_nodup body h
      simpa using registerStatement_nodup hRegistered hNodup
  | transition id t =>
      have hRegistered := registerStatement_nodup (checkTransition_clean h).1 hNodup
      simpa [visit, checkTransition] using hRegistered
  | rememberValue s =>
      have hRegistered := registerStatement_nodup (checkRemember_clean h).1 hNodup
      simpa [visit, checkRemember] using hRegistered
  | guardedAllocation s =>
      rw [visit] at h ⊢
      exact checkGuarded_nodup h (registerStatement_nodup (checkGuarded_clean h).1 hNodup)

theorem visitAll_nodup (statements : List ProgramStatement) {path : String} {index : Nat}
    {available : List String} {v : ValidationState}
    (h : (visitAll program statements path index available v).diagnostics = [])
    (hNodup : v.statementIds.Nodup) :
    (visitAll program statements path index available v).statementIds.Nodup := by
  cases statements with
  | nil => exact hNodup
  | cons s rest =>
      simp only [visitAll] at h ⊢
      exact visitAll_nodup rest h (visit_nodup s (visitAll_clean rest h).1 hNodup)

end

/-- Statements of an accepted Program have distinct ids. -/
theorem Accepted.statementIds_nodup (h : Accepted program) :
    (ProgramStatement.allStatementIds program.statements).Nodup := by
  have hNodup := visitAll_nodup program.statements h.visited_clean List.nodup_nil
  rw [visitAll_statementIds] at hNodup
  simpa using hNodup

end Statements

end RuleTrade
