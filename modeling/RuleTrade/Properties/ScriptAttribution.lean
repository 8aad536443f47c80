import RuleTrade.Properties.SemanticReturns

/-! The scripts that the logic of a strategy writes: their selections, the branches of their rules
and the cooldowns and fallbacks that are named as modifiers. -/

namespace RuleTrade.V1

open Library

variable {strategy : CanonicalStrategyV1}

section Attribution

/-- A component or what feeds it. -/
def InScope (strategy : CanonicalStrategyV1) (component target : String) : Prop :=
  component = target ∨ IsAncestor strategy component target

def isProtection (component : Component) : Bool :=
  component.primitive = "cooldown@1" || component.primitive = "fallback@1"

/-- The id of a fact of a cooldown or fallback with a property. -/
def ProtectionIds (strategy : CanonicalStrategyV1) (facts : List SemanticFact)
    (wanted : String → Prop) (id : String) : Prop :=
  ∃ component ∈ strategy.graph.components, isProtection component = true ∧ wanted component.id ∧
    ∃ fact ∈ factsOf facts component, fact.id = id

/-- What a reference points to feeds the target of an action. -/
def FeedsTarget (strategy : CanonicalStrategyV1) (ref : SemanticProjectionRef) (action : Action) :
    Prop :=
  ∃ component target, ref.primaryComponentId = some component ∧
    rebalanceTarget action = some target ∧ InScope strategy component target

/-- What a branch names for one of its actions: the selections and the allocation that feed its
target, then the action. -/
structure NamesFor (strategy : CanonicalStrategyV1) (facts : List SemanticFact)
    (statements : List LogicStatement) (factId : String) (action : Action)
    (selections : List LogicStatement) (allocation : Option LogicStatement)
    (last : LogicStatement) : Prop where
  ofScript : selections.Sublist statements ∧ allocation.toList ⊆ statements ∧ last ∈ statements
  selections : ∀ statement ∈ statements, statement ∈ selections ↔
    statement.family = .selection ∧ FeedsTarget strategy statement.ref action
  unallocated : allocation = none ↔ ∀ fact ∈ facts, fact.category = .allocation →
    ¬ FeedsTarget strategy fact.ref action
  allocated : ∀ statement, allocation = some statement → statement.family = .portfolioOperation ∧
    ∀ id, id ∈ statement.factIds ↔ ∃ fact ∈ facts, fact.id = id ∧ fact.category = .allocation ∧
      FeedsTarget strategy fact.ref action
  action : last.family = .action ∧ last.factIds = [factId]

/-- A branch names statements for each of its actions in turn. -/
def BranchNames (strategy : CanonicalStrategyV1) (facts : List SemanticFact)
    (statements : List LogicStatement) (rule : Component) (branch : ActionBranch)
    (ids : List String) : Prop :=
  ∃ blocks, List.Forall₂ (fun (item : Action × Nat) (block : List LogicStatement) =>
      ∃ selections allocation last,
        NamesFor strategy facts statements (actionFactId rule branch item.2) item.1
          selections allocation last ∧
        block = selections ++ allocation.toList ++ [last])
    (rule.branch branch).zipIdx blocks ∧
    ids = blocks.flatten.map LogicStatement.id

/-- The script of an entrypoint attributes statements and modifiers as it should. -/
structure Attributes (strategy : CanonicalStrategyV1) (facts : List SemanticFact)
    (entrypoint : Entrypoint) (script : LogicScript) : Prop where
  selections : ∀ component ∈ strategy.graph.components, isSelection component = true →
    IsAncestor strategy component.id entrypoint.targetComponentId →
    (script.statements.filter fun statement => statement.family = .selection &&
      statement.ref.primaryComponentId = some component.id).length = 1
  modifiers : ∀ statement ∈ script.statements, statement.family = .selection →
    ∃ selection, statement.ref.primaryComponentId = some selection ∧
      ∀ id, id ∈ statement.modifierFactIds ↔
        ProtectionIds strategy facts (IsAncestor strategy selection) id
  distinct : (script.statements.map LogicStatement.id).Nodup
  branches : ∀ statement ∈ script.statements, statement.family = .control →
    ∃ rule ∈ strategy.graph.components, statement.ref.primaryComponentId = some rule.id ∧
      BranchNames strategy facts script.statements rule .thenBranch statement.thenStatementIds ∧
      BranchNames strategy facts script.statements rule .otherwise statement.elseStatementIds
  others : ∀ statement ∈ script.statements, statement.family ≠ .control →
    statement.thenStatementIds = [] ∧ statement.elseStatementIds = []

/-- Everything that protects a selection in scope is in scope, and nothing else that protects. -/
def ModifiersFit (strategy : CanonicalStrategyV1) (entrypoint : Entrypoint) : Prop :=
  ∀ selection ∈ strategy.graph.components, isSelection selection = true →
    InScope strategy selection.id entrypoint.targetComponentId →
    ∀ component ∈ strategy.graph.components, isProtection component = true →
      (InScope strategy component.id entrypoint.targetComponentId ↔
        IsAncestor strategy selection.id component.id)

end Attribution

section Scope

variable {fact action : SemanticFact} {component target : String}

theorem mem_scopeOf : component ∈ scopeOf strategy target ↔ InScope strategy component target := by
  rw [scopeOf, List.mem_cons, mem_ancestors, InScope]

theorem isIn_iff {scope : List String} : fact.isIn scope = true ↔
    ∃ component, fact.ref.primaryComponentId = some component ∧ component ∈ scope := by
  unfold SemanticFact.isIn
  cases fact.ref.primaryComponentId <;> simp

theorem isIn_targetScope (detail : Action × ActionBranch) (hDetail : action.detail = some detail) :
    fact.isIn (targetScope strategy action) = true ↔ FeedsTarget strategy fact.ref detail.1 := by
  unfold targetScope FeedsTarget
  rw [isIn_iff, hDetail, Option.bind_some]
  cases hTarget : rebalanceTarget detail.1 with
  | none => simp
  | some target => simp [mem_scopeOf]

theorem sink_ports : ∀ primitive ∈ builtinRegistry,
    primitive.id = "rule@1" ∨ primitive.id = "rebalance@1" → primitive.outputs = [] := by
  decide

/-- Rules and rebalances feed nothing. -/
theorem not_isAncestor_of_sink (hWell : strategy.WellFormed) (h : Accepted strategy)
    {sink : Component} (hMem : sink ∈ strategy.graph.components)
    (hSink : sink.primitive = "rule@1" ∨ sink.primitive = "rebalance@1") :
    ¬ IsAncestor strategy sink.id target := by
  intro hPath
  obtain ⟨next, hFeeds, -⟩ := Relation.TransGen.head'_iff.mp hPath
  obtain ⟨primitive, output, hSpec, hOutput⟩ := output_of_feeds hWell h hFeeds
  obtain ⟨found, hFound, hId, hRegistry⟩ := primitiveSpec_some hSpec
  rw [component?_of_mem hWell hMem] at hFound
  cases hFound
  rw [sink_ports primitive hRegistry (hId ▸ hSink)] at hOutput
  cases hOutput

end Scope

section Kinds

variable {component : Component} {fact : SemanticFact} {facts : List SemanticFact}

theorem choice_fields (h : selectionFact strategy component = .ok fact) :
    fact.isChoice = true ∧ fact.isModifier = false ∧ fact.category = .selection ∧
      fact.id = tagged "selection" component.id ∧
      fact.ref.primaryComponentId = some component.id := by
  obtain ⟨pipeline, -, rfl⟩ := selectionFact_ok h
  cases hRank : pipeline.rank <;>
    simp [pipelineFact, componentRef, SemanticFact.isChoice, SemanticFact.isModifier, hRank, tagged]

theorem own_not_choice (hOwn : fact ∈ ownFacts component) : fact.isChoice = false := by
  rcases mem_ownFacts.mp hOwn with ⟨-, hRule⟩ | ⟨-, shape, hShape, rfl⟩
  · rcases mem_ruleFacts.mp hRule with ⟨-, rfl⟩ | ⟨branch, ⟨action, index⟩, -, rfl⟩
    · rfl
    · cases action <;> rfl
  · unfold factShape at hShape
    split at hShape <;> cases hShape <;> rfl

theorem choice_of_mem (hFacts : componentFacts strategy = .ok facts) (hFact : fact ∈ facts)
    (hChoice : fact.isChoice = true) : ∃ component ∈ strategy.graph.components,
      isSelection component = true ∧ selectionFact strategy component = .ok fact := by
  rcases (mem_componentFacts hFacts).mp hFact with hSelection | ⟨component, -, hOwn⟩ |
    ⟨definition, -, rfl⟩
  · exact hSelection
  · rw [own_not_choice hOwn] at hChoice
    cases hChoice
  · cases hChoice

theorem action_of_own (hOwn : fact ∈ ownFacts component) (hCategory : fact.category = .action) :
    (component.primitive = "rule@1" ∨ component.primitive = "rebalance@1") ∧
      ∃ rest, fact.id = tagged "action" rest := by
  rcases mem_ownFacts.mp hOwn with ⟨hKind, hRule⟩ | ⟨-, shape, hShape, rfl⟩
  · rcases mem_ruleFacts.mp hRule with ⟨-, rfl⟩ | ⟨branch, item, -, rfl⟩
    · cases hCategory
    · obtain ⟨more, hId⟩ := actionFactId_eq component branch item.2
      exact ⟨Or.inl hKind, _, hId⟩
  · unfold factShape at hShape
    split at hShape <;> cases hShape <;> cases hCategory
    next hKind => exact ⟨Or.inr hKind, component.id, rfl⟩

theorem predicate_of_own (hOwn : fact ∈ ownFacts component) (hCategory : fact.category = .predicate) :
    component.primitive = "rule@1" ∧ fact = predicateFact component := by
  rcases mem_ownFacts.mp hOwn with ⟨hKind, hRule⟩ | ⟨-, shape, hShape, rfl⟩
  · rcases mem_ruleFacts.mp hRule with ⟨-, rfl⟩ | ⟨branch, item, -, rfl⟩
    · exact ⟨hKind, rfl⟩
    · cases hCategory
  · unfold factShape at hShape
    split at hShape <;> cases hShape <;> cases hCategory

theorem modifier_of_own (hOwn : fact ∈ ownFacts component) :
    fact.isModifier = isProtection component := by
  rcases mem_ownFacts.mp hOwn with ⟨hKind, hRule⟩ | ⟨-, shape, hShape, rfl⟩
  · have hNot : isProtection component = false := by simp [isProtection, hKind]
    rcases mem_ruleFacts.mp hRule with ⟨-, rfl⟩ | ⟨branch, ⟨action, index⟩, -, rfl⟩
    · rw [hNot]
      rfl
    · rw [hNot]
      cases action <;> rfl
  · unfold factShape at hShape
    split at hShape <;> cases hShape
    all_goals
      next hKind => simp [isProtection, hKind, SemanticFact.isModifier, shapedFact]

/-- Modifiers are the facts of cooldowns and fallbacks. -/
theorem modifier_iff (hWell : strategy.WellFormed) (hFacts : componentFacts strategy = .ok facts)
    (hFact : fact ∈ facts) : fact.isModifier = true ↔ ∃ component ∈ strategy.graph.components,
      isProtection component = true ∧ fact.ref.primaryComponentId = some component.id := by
  constructor
  · intro hModifier
    rcases (mem_componentFacts hFacts).mp hFact with ⟨component, -, -, hFrom⟩ |
      ⟨component, hMem, hOwn⟩ | ⟨definition, -, rfl⟩
    · rw [(choice_fields hFrom).2.1] at hModifier
      cases hModifier
    · exact ⟨component, hMem, (modifier_of_own hOwn) ▸ hModifier, (own_of_mem hOwn).2.1⟩
    · cases hModifier
  · rintro ⟨component, hMem, hProtection, hPrimary⟩
    have hOf : fact ∈ factsOf facts component :=
      List.mem_filter.mpr ⟨hFact, by simpa using hPrimary⟩
    have hIs : isSelection component = false := by
      unfold isProtection at hProtection
      rw [Bool.or_eq_true, decide_eq_true_eq, decide_eq_true_eq] at hProtection
      rcases hProtection with hKind | hKind <;> simp [isSelection, hKind]
    have hFacts := factsOf_eq hWell hFacts hMem
    rw [hIs, if_neg (by decide)] at hFacts
    rw [hFacts] at hOf
    rw [modifier_of_own hOf, hProtection]

end Kinds

section Statements

variable {facts : List SemanticFact} {target : String} {statement : LogicStatement}

def allocationsOf (facts : List SemanticFact) : List SemanticFact :=
  facts.filter (·.category = .allocation)

def actionsOf (facts : List SemanticFact) : List SemanticFact :=
  facts.filter (·.category = .action)

def predicatesOf (facts : List SemanticFact) : List SemanticFact :=
  facts.filter (·.category = .predicate)

/-- The statements of an action: its allocation, when it has one, and itself. -/
def actionBlock (strategy : CanonicalStrategyV1) (facts : List SemanticFact)
    (action : SemanticFact) : List LogicStatement :=
  (branchAllocation strategy (allocationsOf facts) action).toList ++ [actionStatement action]

def branchIds (strategy : CanonicalStrategyV1) (facts : List SemanticFact)
    (wanted : ActionBranch) : List String :=
  ((actionsOf facts).filter (·.branch = wanted)).flatMap
    (branchStatementIds strategy (facts.filter SemanticFact.isChoice) (allocationsOf facts))

/-- The statements after those of selections. -/
def laterStatements (strategy : CanonicalStrategyV1) (target : String)
    (facts : List SemanticFact) : List LogicStatement :=
  if (predicatesOf facts).isEmpty then
    (allocationStatement target (allocationsOf facts)).toList ++
      (actionsOf facts).map actionStatement
  else
    (actionsOf facts).flatMap (actionBlock strategy facts) ++
      (predicatesOf facts).map
        (predicateStatement (branchIds strategy facts .thenBranch) (branchIds strategy facts .otherwise))

theorem scriptStatements_eq : scriptStatements strategy target facts =
    (facts.filter SemanticFact.isChoice).map (selectionStatement facts) ++
      laterStatements strategy target facts :=
  rfl

theorem allocationStatement_some {name : String} {allocations : List SemanticFact}
    (h : allocationStatement name allocations = some statement) :
    statement.id = "statement:" ++ tagged "allocation" name ∧
      statement.family = .portfolioOperation ∧
      statement.factIds = allocations.map SemanticFact.id ∧ statement.thenStatementIds = [] ∧
      statement.elseStatementIds = [] := by
  obtain ⟨first, -, rfl⟩ := Option.map_eq_some_iff.mp h
  refine ⟨?_, rfl, rfl, rfl, rfl⟩
  rw [show "statement:allocation:" = "statement:" ++ ("allocation" ++ ":") from rfl,
    String.append_assoc]
  rfl

theorem mem_actionBlock {action : SemanticFact} :
    statement ∈ actionBlock strategy facts action ↔
      branchAllocation strategy (allocationsOf facts) action = some statement ∨
        statement = actionStatement action := by
  rw [actionBlock, List.mem_append, Option.mem_toList, List.mem_singleton]

/-- A later statement is of an allocation, an action or a predicate. -/
theorem mem_laterStatements (h : statement ∈ laterStatements strategy target facts) :
    (∃ name allocations, allocationStatement name allocations = some statement) ∨
      (∃ action ∈ actionsOf facts, statement = actionStatement action) ∨
      ∃ predicate ∈ predicatesOf facts, statement = predicateStatement
        (branchIds strategy facts .thenBranch) (branchIds strategy facts .otherwise) predicate := by
  unfold laterStatements at h
  split at h
  · rcases List.mem_append.mp h with hAllocation | hAction
    · exact Or.inl ⟨_, _, Option.mem_toList.mp hAllocation⟩
    · obtain ⟨action, hMem, rfl⟩ := List.mem_map.mp hAction
      exact Or.inr (Or.inl ⟨action, hMem, rfl⟩)
  · rcases List.mem_append.mp h with hBlock | hPredicate
    · obtain ⟨action, hMem, hIn⟩ := List.mem_flatMap.mp hBlock
      rcases mem_actionBlock.mp hIn with hAllocation | rfl
      · exact Or.inl ⟨_, _, hAllocation⟩
      · exact Or.inr (Or.inl ⟨action, hMem, rfl⟩)
    · obtain ⟨predicate, hMem, rfl⟩ := List.mem_map.mp hPredicate
      exact Or.inr (Or.inr ⟨predicate, hMem, rfl⟩)

theorem family_of_later (h : statement ∈ laterStatements strategy target facts) :
    statement.family ≠ .selection := by
  rcases mem_laterStatements h with ⟨name, allocations, hSome⟩ | ⟨action, -, rfl⟩ | ⟨predicate, -, rfl⟩
  · rw [(allocationStatement_some hSome).2.1]
    decide
  · exact fun hSame => by cases hSame
  · exact fun hSame => by cases hSame

/-- The statements of selections are those of the family. -/
theorem mem_selections : statement ∈ scriptStatements strategy target facts ∧
    statement.family = .selection ↔
      ∃ fact ∈ facts, fact.isChoice = true ∧ statement = selectionStatement facts fact := by
  rw [scriptStatements_eq, List.mem_append]
  constructor
  · rintro ⟨hSelection | hLater, hFamily⟩
    · obtain ⟨fact, hMem, rfl⟩ := List.mem_map.mp hSelection
      exact ⟨fact, (List.mem_filter.mp hMem).1, (List.mem_filter.mp hMem).2, rfl⟩
    · exact absurd hFamily (family_of_later hLater)
  · rintro ⟨fact, hMem, hChoice, rfl⟩
    exact ⟨Or.inl (List.mem_map_of_mem (List.mem_filter.mpr ⟨hMem, hChoice⟩)), rfl⟩

theorem control_of_mem (h : statement ∈ scriptStatements strategy target facts)
    (hControl : statement.family = .control) :
    ∃ predicate ∈ predicatesOf facts, statement = predicateStatement
      (branchIds strategy facts .thenBranch) (branchIds strategy facts .otherwise) predicate := by
  rcases List.mem_append.mp (scriptStatements_eq ▸ h) with hSelection | hLater
  · obtain ⟨fact, -, rfl⟩ := List.mem_map.mp hSelection
    cases hControl
  · rcases mem_laterStatements hLater with ⟨name, allocations, hSome⟩ | ⟨action, -, rfl⟩ | hPredicate
    · rw [(allocationStatement_some hSome).2.1] at hControl
      cases hControl
    · cases hControl
    · exact hPredicate

/-- Only statements of predicates have branches. -/
theorem branches_of_mem (h : statement ∈ scriptStatements strategy target facts)
    (hFamily : statement.family ≠ .control) :
    statement.thenStatementIds = [] ∧ statement.elseStatementIds = [] := by
  rcases List.mem_append.mp (scriptStatements_eq ▸ h) with hSelection | hLater
  · obtain ⟨fact, -, rfl⟩ := List.mem_map.mp hSelection
    exact ⟨rfl, rfl⟩
  · rcases mem_laterStatements hLater with ⟨name, allocations, hSome⟩ | ⟨action, -, rfl⟩ |
      ⟨predicate, -, rfl⟩
    · exact (allocationStatement_some hSome).2.2.2
    · exact ⟨rfl, rfl⟩
    · exact absurd rfl hFamily

end Statements

section Distinct

variable {facts inside : List SemanticFact} {target : String}

theorem statementId_ne {tag tag' rest rest' : String} (hTag : Plain tag) (hTag' : Plain tag')
    (hNe : tag ≠ tag') : "statement:" ++ tagged tag rest ≠ "statement:" ++ tagged tag' rest' := by
  intro hSame
  exact hNe (tagged_inj hTag hTag' ((String.append_right_inj _).mp hSame)).1

theorem actionBlock_ids {action : SemanticFact} {id : String}
    (h : id ∈ (actionBlock strategy inside action).map LogicStatement.id) :
    id = "statement:" ++ tagged "allocation" action.id ∨ id = "statement:" ++ action.id := by
  obtain ⟨statement, hMem, rfl⟩ := List.mem_map.mp h
  rcases mem_actionBlock.mp hMem with hAllocation | rfl
  · exact Or.inl (allocationStatement_some hAllocation).1
  · exact Or.inr rfl

theorem nodup_actionBlock {action : SemanticFact} (hAction : ∃ rest, action.id = tagged "action" rest) :
    ((actionBlock strategy inside action).map LogicStatement.id).Nodup := by
  obtain ⟨rest, hId⟩ := hAction
  unfold actionBlock
  cases hAllocation : branchAllocation strategy (allocationsOf inside) action with
  | none => simp
  | some statement =>
      have hNe : statement.id ≠ (actionStatement action).id := by
        intro hSame
        rw [(allocationStatement_some hAllocation).1, actionStatement, hId] at hSame
        exact statementId_ne (by decide) (by decide) (by decide) hSame
      simpa using hNe

/-- Blocks of different actions have different ids. -/
theorem nodup_blocks {actions : List SemanticFact}
    (hActions : ∀ action ∈ actions, ∃ rest, action.id = tagged "action" rest)
    (hUnique : (actions.map SemanticFact.id).Nodup) :
    ((actions.flatMap (actionBlock strategy inside)).map LogicStatement.id).Nodup := by
  rw [List.map_flatMap, List.nodup_flatMap]
  refine ⟨fun action hMem => nodup_actionBlock (hActions action hMem), ?_⟩
  apply (List.pairwise_map.mp hUnique).imp_of_mem
  intro first second hFirst hSecond hNe id hInFirst hInSecond
  obtain ⟨rest, hFirstId⟩ := hActions first hFirst
  obtain ⟨rest', hSecondId⟩ := hActions second hSecond
  have hTags : ∀ {name name' : String},
      "statement:" ++ tagged "allocation" name ≠ "statement:" ++ tagged "action" name' :=
    statementId_ne (by decide) (by decide) (by decide)
  rcases actionBlock_ids hInFirst with rfl | rfl <;>
    rcases actionBlock_ids hInSecond with hSame | hSame
  · exact hNe (tagged_inj (by decide) (by decide) ((String.append_right_inj _).mp hSame)).2
  · rw [hSecondId] at hSame
    exact hTags hSame
  · rw [hFirstId] at hSame
    exact hTags hSame.symm
  · exact hNe ((String.append_right_inj _).mp hSame)

/-- The ids of facts that a script makes statements of, by kind. -/
structure TaggedFacts (inside : List SemanticFact) : Prop where
  unique : (inside.map SemanticFact.id).Nodup
  choices : ∀ fact ∈ inside, fact.isChoice = true → ∃ rest, fact.id = tagged "selection" rest
  actions : ∀ fact ∈ inside, fact.category = .action → ∃ rest, fact.id = tagged "action" rest
  predicates : ∀ fact ∈ inside, fact.category = .predicate →
    ∃ rest, fact.id = tagged "predicate" rest

theorem taggedFacts (hWell : strategy.WellFormed) (hFacts : componentFacts strategy = .ok facts)
    (hSub : inside.Sublist facts) : TaggedFacts inside := by
  refine ⟨(nodup_factIds hWell hFacts).sublist (hSub.map _), ?_, ?_, ?_⟩
  · intro fact hFact hChoice
    obtain ⟨component, -, -, hFrom⟩ := choice_of_mem hFacts (hSub.subset hFact) hChoice
    exact ⟨_, (choice_fields hFrom).2.2.2.1⟩
  · intro fact hFact hCategory
    rcases (mem_componentFacts hFacts).mp (hSub.subset hFact) with ⟨component, -, -, hFrom⟩ |
      ⟨component, -, hOwn⟩ | ⟨definition, -, rfl⟩
    · rw [(choice_fields hFrom).2.2.1] at hCategory
      cases hCategory
    · exact (action_of_own hOwn hCategory).2
    · cases hCategory
  · intro fact hFact hCategory
    rcases (mem_componentFacts hFacts).mp (hSub.subset hFact) with ⟨component, -, -, hFrom⟩ |
      ⟨component, -, hOwn⟩ | ⟨definition, -, rfl⟩
    · rw [(choice_fields hFrom).2.2.1] at hCategory
      cases hCategory
    · obtain ⟨-, rfl⟩ := predicate_of_own hOwn hCategory
      exact ⟨component.id, rfl⟩
    · cases hCategory

theorem nodup_statementIds {facts : List SemanticFact} {make : SemanticFact → LogicStatement}
    (hMake : ∀ fact, (make fact).id = "statement:" ++ fact.id)
    (hUnique : (facts.map SemanticFact.id).Nodup) :
    ((facts.map make).map LogicStatement.id).Nodup := by
  rw [List.map_map, show LogicStatement.id ∘ make = ("statement:" ++ ·) ∘ SemanticFact.id from
    funext hMake, ← List.map_map]
  exact hUnique.map fun first second hSame => (String.append_right_inj _).mp hSame

theorem nodup_laterStatements (h : TaggedFacts inside) :
    ((laterStatements strategy target inside).map LogicStatement.id).Nodup := by
  have hActions : ∀ action ∈ actionsOf inside, ∃ rest, action.id = tagged "action" rest := by
    intro action hMem
    obtain ⟨hIn, hIs⟩ := List.mem_filter.mp hMem
    exact h.actions action hIn (by simpa using hIs)
  have hUnique : ((actionsOf inside).map SemanticFact.id).Nodup :=
    h.unique.sublist (List.filter_sublist.map _)
  unfold laterStatements
  split
  · rw [List.map_append, List.nodup_append]
    refine ⟨?_, nodup_statementIds (fun _ => rfl) hUnique, ?_⟩
    · cases allocationStatement target (allocationsOf inside) <;> simp
    · rintro _ hAllocation _ hAction rfl
      obtain ⟨statement, hSome, hId⟩ := List.mem_map.mp hAllocation
      rw [(allocationStatement_some (Option.mem_toList.mp hSome)).1] at hId
      obtain ⟨_, hIn, hSame⟩ := List.mem_map.mp hAction
      obtain ⟨action, hMem, rfl⟩ := List.mem_map.mp hIn
      obtain ⟨rest, hActionId⟩ := hActions action hMem
      rw [← hId, actionStatement, hActionId] at hSame
      exact statementId_ne (by decide) (by decide) (by decide) hSame
  · rw [List.map_append, List.nodup_append]
    refine ⟨nodup_blocks hActions hUnique, nodup_statementIds (fun _ => rfl)
      (h.unique.sublist (List.filter_sublist.map _)), ?_⟩
    rintro _ hBlock _ hPredicate rfl
    rw [List.map_flatMap] at hBlock
    obtain ⟨action, hMem, hId⟩ := List.mem_flatMap.mp hBlock
    obtain ⟨_, hIn, rfl⟩ := List.mem_map.mp hPredicate
    obtain ⟨predicate, hIs, rfl⟩ := List.mem_map.mp hIn
    obtain ⟨hFact, hCategory⟩ := List.mem_filter.mp hIs
    obtain ⟨rest, hPredicateId⟩ := h.predicates predicate hFact (by simpa using hCategory)
    obtain ⟨rest', hActionId⟩ := hActions action hMem
    rcases actionBlock_ids hId with hSame | hSame
    · rw [predicateStatement, hPredicateId] at hSame
      exact statementId_ne (by decide) (by decide) (by decide) hSame
    · rw [predicateStatement, hPredicateId, hActionId] at hSame
      exact statementId_ne (by decide) (by decide) (by decide) hSame

/-- No two statements of a script have one id. -/
theorem nodup_statements (h : TaggedFacts inside) :
    ((scriptStatements strategy target inside).map LogicStatement.id).Nodup := by
  rw [scriptStatements_eq, List.map_append, List.nodup_append]
  refine ⟨nodup_statementIds (fun _ => rfl) (h.unique.sublist (List.filter_sublist.map _)),
    nodup_laterStatements h, ?_⟩
  rintro _ hSelection _ hLater rfl
  obtain ⟨_, hIn, rfl⟩ := List.mem_map.mp hSelection
  obtain ⟨fact, hFact, rfl⟩ := List.mem_map.mp hIn
  obtain ⟨rest, hId⟩ := h.choices fact (List.mem_filter.mp hFact).1 (List.mem_filter.mp hFact).2
  obtain ⟨statement, hStatement, hSame⟩ := List.mem_map.mp hLater
  rw [selectionStatement, hId] at hSame
  rcases mem_laterStatements hStatement with ⟨name, allocations, hSome⟩ | ⟨action, hAction, rfl⟩ |
    ⟨predicate, hPredicate, rfl⟩
  · rw [(allocationStatement_some hSome).1] at hSame
    exact statementId_ne (by decide) (by decide) (by decide) hSame
  · obtain ⟨hMem, hCategory⟩ := List.mem_filter.mp hAction
    obtain ⟨rest', hActionId⟩ := h.actions action hMem (by simpa using hCategory)
    rw [actionStatement, hActionId] at hSame
    exact statementId_ne (by decide) (by decide) (by decide) hSame
  · obtain ⟨hMem, hCategory⟩ := List.mem_filter.mp hPredicate
    obtain ⟨rest', hPredicateId⟩ := h.predicates predicate hMem (by simpa using hCategory)
    rw [predicateStatement, hPredicateId] at hSame
    exact statementId_ne (by decide) (by decide) (by decide) hSame

end Distinct

section Script

variable {facts : List SemanticFact} {target : String}

/-- The facts in the scope of a component. -/
def factsWithin (strategy : CanonicalStrategyV1) (facts : List SemanticFact) (target : String) :
    List SemanticFact :=
  facts.filter (·.isIn (scopeOf strategy target))

theorem mem_factsWithin {fact : SemanticFact} : fact ∈ factsWithin strategy facts target ↔
    fact ∈ facts ∧ ∃ component, fact.ref.primaryComponentId = some component ∧
      InScope strategy component target := by
  rw [factsWithin, List.mem_filter, isIn_iff]
  simp only [mem_scopeOf]

/-- A selection in scope has one statement. -/
theorem selection_once (hWell : strategy.WellFormed) (hFacts : componentFacts strategy = .ok facts)
    {component : Component} (hMem : component ∈ strategy.graph.components)
    (hIs : isSelection component = true) (hScope : InScope strategy component.id target) :
    ((scriptStatements strategy target (factsWithin strategy facts target)).filter
      fun statement => statement.family = .selection &&
        statement.ref.primaryComponentId = some component.id).length = 1 := by
  have hOf := factsOf_eq hWell hFacts hMem
  rw [if_pos hIs] at hOf
  obtain ⟨fact, hFrom, hOnly⟩ := hOf
  obtain ⟨hChoice, -, -, -, hPrimary⟩ := choice_fields hFrom
  have hLater : (laterStatements strategy target (factsWithin strategy facts target)).filter
      (fun statement => statement.family = .selection &&
        statement.ref.primaryComponentId = some component.id) = [] := by
    rw [List.filter_eq_nil_iff]
    intro statement hStatement
    simp [family_of_later hStatement]
  have hSelected : ((factsWithin strategy facts target).filter SemanticFact.isChoice).filter
      (fun fact => fact.ref.primaryComponentId = some component.id) = [fact] := by
    rw [← hOnly, factsWithin, List.filter_filter, List.filter_filter]
    apply List.filter_congr
    intro other hOther
    by_cases hSame : other.ref.primaryComponentId = some component.id
    · have hIn : other ∈ factsOf facts component := List.mem_filter.mpr ⟨hOther, by simpa using hSame⟩
      rw [hOnly, List.mem_singleton] at hIn
      have hWithin : fact.isIn (scopeOf strategy target) = true :=
        isIn_iff.mpr ⟨component.id, hPrimary, mem_scopeOf.mpr hScope⟩
      rw [hIn, hChoice, hWithin, hPrimary]
      simp
    · simp [hSame]
  rw [scriptStatements_eq, List.filter_append, hLater, List.append_nil, List.filter_map,
    List.length_map]
  have hCompose : ((fun statement : LogicStatement => decide (statement.family = .selection) &&
        decide (statement.ref.primaryComponentId = some component.id)) ∘
      selectionStatement (factsWithin strategy facts target)) =
        fun fact : SemanticFact => decide (fact.ref.primaryComponentId = some component.id) := by
    funext fact
    rfl
  rw [hCompose, hSelected]
  rfl

end Script

section Branches

variable {facts : List SemanticFact} {rule : Component} {target : String}

/-- A predicate in scope is that of the target. -/
theorem rule_of_predicate (hWell : strategy.WellFormed) (h : Accepted strategy)
    (hFacts : componentFacts strategy = .ok facts) {predicate : SemanticFact}
    (hMem : predicate ∈ predicatesOf (factsWithin strategy facts target)) :
    ∃ rule ∈ strategy.graph.components, rule.id = target ∧ rule.primitive = "rule@1" ∧
      predicate = predicateFact rule := by
  obtain ⟨hIn, hIs⟩ := List.mem_filter.mp hMem
  obtain ⟨hFact, component, hPrimary, hScope⟩ := mem_factsWithin.mp hIn
  have hCategory : predicate.category = .predicate := by simpa using hIs
  rcases (mem_componentFacts hFacts).mp hFact with ⟨other, -, -, hFrom⟩ | ⟨rule, hRule, hOwn⟩ |
    ⟨definition, -, rfl⟩
  · rw [(choice_fields hFrom).2.2.1] at hCategory
    cases hCategory
  · obtain ⟨hKind, rfl⟩ := predicate_of_own hOwn hCategory
    cases hPrimary
    rcases hScope with hSame | hPath
    · exact ⟨rule, hRule, hSame, hKind, rfl⟩
    · exact absurd hPath (not_isAncestor_of_sink hWell h hRule (Or.inl hKind))
  · cases hCategory

theorem category_actionFacts {fact : SemanticFact} (h : fact ∈ actionFacts rule) :
    fact.category = .action := by
  rcases List.mem_append.mp h with hThen | hOtherwise
  · obtain ⟨item, -, rfl⟩ := List.mem_map.mp hThen
    rfl
  · obtain ⟨item, -, rfl⟩ := List.mem_map.mp hOtherwise
    rfl

/-- The actions in the scope of a rule are its own. -/
theorem actionsOf_rule (hWell : strategy.WellFormed) (h : Accepted strategy)
    (hFacts : componentFacts strategy = .ok facts) (hMem : rule ∈ strategy.graph.components)
    (hKind : rule.primitive = "rule@1") :
    actionsOf (factsWithin strategy facts rule.id) = actionFacts rule := by
  have hOwn : actionsOf (factsOf facts rule) = actionFacts rule := by
    have hActions : (actionFacts rule).filter (·.category = .action) = actionFacts rule := by
      rw [List.filter_eq_self]
      intro fact hFact
      simpa using category_actionFacts hFact
    rw [factsOf_rule hWell hFacts hMem hKind, ruleFacts_eq, actionsOf, List.filter_append, hActions]
    cases rule.condition <;> rfl
  rw [← hOwn, actionsOf, actionsOf, factsWithin, factsOf, List.filter_filter, List.filter_filter]
  apply List.filter_congr
  intro fact hFact
  by_cases hAction : fact.category = .action
  · rw [Bool.eq_iff_iff]
    simp only [hAction, decide_true, Bool.true_and, decide_eq_true_eq, isIn_iff, mem_scopeOf]
    constructor
    · rintro ⟨component, hPrimary, rfl | hPath⟩
      · exact hPrimary
      · exfalso
        rcases (mem_componentFacts hFacts).mp hFact with ⟨other, -, -, hFrom⟩ |
          ⟨other, hOther, hOwn⟩ | ⟨definition, -, rfl⟩
        · rw [(choice_fields hFrom).2.2.1] at hAction
          cases hAction
        · rw [(own_of_mem hOwn).2.1] at hPrimary
          cases hPrimary
          exact not_isAncestor_of_sink hWell h hOther (action_of_own hOwn hAction).1 hPath
        · cases hAction
    · intro hPrimary
      exact ⟨rule.id, hPrimary, Or.inl rfl⟩
  · simp [hAction]

theorem branch_actionFacts (wanted : ActionBranch) :
    (actionFacts rule).filter (·.branch = wanted) =
      (rule.branch wanted).zipIdx.map (actionFact rule wanted) := by
  have hSame : ∀ (items : List Action) (branch : ActionBranch),
      (items.zipIdx.map (actionFact rule branch)).filter (·.branch = branch) =
        items.zipIdx.map (actionFact rule branch) := by
    intro items branch
    rw [List.filter_eq_self]
    intro fact hFact
    obtain ⟨item, -, rfl⟩ := List.mem_map.mp hFact
    simp [SemanticFact.branch, actionFact]
  have hOther : ∀ (items : List Action) (branch other : ActionBranch), branch ≠ other →
      (items.zipIdx.map (actionFact rule branch)).filter (·.branch = other) = [] := by
    intro items branch other hNe
    rw [List.filter_eq_nil_iff]
    intro fact hFact
    obtain ⟨item, -, rfl⟩ := List.mem_map.mp hFact
    simp [SemanticFact.branch, actionFact, hNe]
  rw [actionFacts, List.filter_append]
  cases wanted with
  | thenBranch => rw [hSame, hOther _ _ _ (by decide), List.append_nil]; rfl
  | otherwise => rw [hSame, hOther _ _ _ (by decide), List.nil_append]; rfl

/-- Whatever feeds the target of a rule's action is in the rule's scope. -/
theorem inScope_of_feedsTarget (hWell : strategy.WellFormed) (h : Accepted strategy)
    (hMem : rule ∈ strategy.graph.components) (hKind : rule.primitive = "rule@1")
    {ref : SemanticProjectionRef} {action : Action} (hAction : action ∈ rule.branchActions)
    (hFeeds : FeedsTarget strategy ref action) :
    ∃ component, ref.primaryComponentId = some component ∧ InScope strategy component rule.id := by
  obtain ⟨component, target, hPrimary, hTarget, hScope⟩ := hFeeds
  refine ⟨component, hPrimary, Or.inr (isAncestor_iff.mpr ⟨target, ?_, hScope⟩)⟩
  rw [mem_incoming_of_rule hWell h hMem hKind]
  exact List.mem_filterMap.mpr ⟨action, hAction, hTarget⟩

theorem mem_branchActions {branch : ActionBranch} {item : Action × Nat}
    (h : item ∈ (rule.branch branch).zipIdx) : item.1 ∈ rule.branchActions := by
  have hIn := List.fst_mem_of_mem_zipIdx h
  cases branch with
  | thenBranch => exact List.mem_append_left _ hIn
  | otherwise => exact List.mem_append_right _ hIn

theorem mem_actionFacts {branch : ActionBranch} {item : Action × Nat}
    (h : item ∈ (rule.branch branch).zipIdx) :
    actionFact rule branch item ∈ actionFacts rule := by
  cases branch with
  | thenBranch => exact List.mem_append_left _ (List.mem_map_of_mem h)
  | otherwise => exact List.mem_append_right _ (List.mem_map_of_mem h)

/-- The statements that a branch names for one of its actions. -/
theorem namesFor_action (hWell : strategy.WellFormed) (h : Accepted strategy)
    (hFacts : componentFacts strategy = .ok facts) (hMem : rule ∈ strategy.graph.components)
    (hKind : rule.primitive = "rule@1")
    (hPredicates : (predicatesOf (factsWithin strategy facts rule.id)).isEmpty = false)
    {branch : ActionBranch} {item : Action × Nat} (hItem : item ∈ (rule.branch branch).zipIdx) :
    NamesFor strategy facts
      (scriptStatements strategy rule.id (factsWithin strategy facts rule.id))
      (actionFactId rule branch item.2) item.1
      ((((factsWithin strategy facts rule.id).filter SemanticFact.isChoice).filter
        (·.isIn (targetScope strategy (actionFact rule branch item)))).map
          (selectionStatement (factsWithin strategy facts rule.id)))
      (branchAllocation strategy (allocationsOf (factsWithin strategy facts rule.id))
        (actionFact rule branch item))
      (actionStatement (actionFact rule branch item)) := by
  have hIn : ∀ {fact : SemanticFact},
      fact.isIn (targetScope strategy (actionFact rule branch item)) = true ↔
        FeedsTarget strategy fact.ref item.1 := isIn_targetScope (item.1, branch) rfl
  have hWithin : ∀ {fact : SemanticFact}, fact ∈ facts → FeedsTarget strategy fact.ref item.1 →
      fact ∈ factsWithin strategy facts rule.id := by
    intro fact hFact hFeeds
    exact mem_factsWithin.mpr ⟨hFact,
      inScope_of_feedsTarget hWell h hMem hKind (mem_branchActions hItem) hFeeds⟩
  have hBlock : ∀ statement ∈ actionBlock strategy (factsWithin strategy facts rule.id)
      (actionFact rule branch item), statement ∈
        scriptStatements strategy rule.id (factsWithin strategy facts rule.id) := by
    intro statement hStatement
    rw [scriptStatements_eq, laterStatements, hPredicates, if_neg (by decide),
      actionsOf_rule hWell h hFacts hMem hKind]
    exact List.mem_append_right _ (List.mem_append_left _
      (List.mem_flatMap.mpr ⟨_, mem_actionFacts hItem, hStatement⟩))
  have hAllocations : ∀ {fact : SemanticFact},
      fact ∈ (allocationsOf (factsWithin strategy facts rule.id)).filter
          (·.isIn (targetScope strategy (actionFact rule branch item))) ↔
        fact ∈ facts ∧ fact.category = .allocation ∧ FeedsTarget strategy fact.ref item.1 := by
    intro fact
    rw [allocationsOf, List.mem_filter, List.mem_filter, decide_eq_true_eq, hIn]
    constructor
    · rintro ⟨⟨hFact, hCategory⟩, hFeeds⟩
      exact ⟨(mem_factsWithin.mp hFact).1, hCategory, hFeeds⟩
    · rintro ⟨hFact, hCategory, hFeeds⟩
      exact ⟨⟨hWithin hFact hFeeds, hCategory⟩, hFeeds⟩
  refine ⟨⟨?_, ?_, ?_⟩, ?_, ?_, ?_, rfl, rfl⟩
  · rw [scriptStatements_eq]
    exact (List.filter_sublist.map _).trans (List.sublist_append_left _ _)
  · intro statement hStatement
    exact hBlock statement (List.mem_append_left _ hStatement)
  · exact hBlock _ (List.mem_append_right _ (List.mem_singleton_self _))
  · intro statement hStatement
    constructor
    · intro hNamed
      obtain ⟨fact, hFact, rfl⟩ := List.mem_map.mp hNamed
      exact ⟨rfl, hIn.mp (List.mem_filter.mp hFact).2⟩
    · rintro ⟨hFamily, hFeeds⟩
      obtain ⟨fact, hFact, hChoice, rfl⟩ := mem_selections.mp ⟨hStatement, hFamily⟩
      exact List.mem_map_of_mem (List.mem_filter.mpr
        ⟨List.mem_filter.mpr ⟨hFact, hChoice⟩, hIn.mpr hFeeds⟩)
  · rw [branchAllocation, allocationStatement, Option.map_eq_none_iff, List.head?_eq_none_iff,
      List.eq_nil_iff_forall_not_mem]
    constructor
    · intro hNone fact hFact hCategory hFeeds
      exact hNone fact (hAllocations.mpr ⟨hFact, hCategory, hFeeds⟩)
    · intro hNone fact hFact
      obtain ⟨hFact, hCategory, hFeeds⟩ := hAllocations.mp hFact
      exact hNone fact hFact hCategory hFeeds
  · intro statement hSome
    obtain ⟨-, hFamily, hIds, -⟩ := allocationStatement_some hSome
    refine ⟨hFamily, fun id => ?_⟩
    rw [hIds, List.mem_map]
    constructor
    · rintro ⟨fact, hFact, hId⟩
      obtain ⟨hFact, hCategory, hFeeds⟩ := hAllocations.mp hFact
      exact ⟨fact, hFact, hId, hCategory, hFeeds⟩
    · rintro ⟨fact, hFact, hId, hCategory, hFeeds⟩
      exact ⟨fact, hAllocations.mpr ⟨hFact, hCategory, hFeeds⟩, hId⟩

/-- The lists of a predicate's statement name what their branches are made of. -/
theorem branchNames (hWell : strategy.WellFormed) (h : Accepted strategy)
    (hFacts : componentFacts strategy = .ok facts) (hMem : rule ∈ strategy.graph.components)
    (hKind : rule.primitive = "rule@1")
    (hPredicates : (predicatesOf (factsWithin strategy facts rule.id)).isEmpty = false)
    (branch : ActionBranch) :
    BranchNames strategy facts
      (scriptStatements strategy rule.id (factsWithin strategy facts rule.id)) rule branch
      (branchIds strategy (factsWithin strategy facts rule.id) branch) := by
  refine ⟨(rule.branch branch).zipIdx.map fun item =>
    (((factsWithin strategy facts rule.id).filter SemanticFact.isChoice).filter
        (·.isIn (targetScope strategy (actionFact rule branch item)))).map
          (selectionStatement (factsWithin strategy facts rule.id)) ++
      (branchAllocation strategy (allocationsOf (factsWithin strategy facts rule.id))
        (actionFact rule branch item)).toList ++
      [actionStatement (actionFact rule branch item)], ?_, ?_⟩
  · rw [List.forall₂_map_right_iff, List.forall₂_same]
    intro item hItem
    exact ⟨_, _, _, namesFor_action hWell h hFacts hMem hKind hPredicates hItem, rfl⟩
  · rw [branchIds, actionsOf_rule hWell h hFacts hMem hKind, branch_actionFacts, List.flatMap_map,
      ← List.flatMap_def, List.map_flatMap]
    apply List.flatMap_congr
    intro item _
    simp only [branchStatementIds, List.map_append, List.map_map, List.map_cons, List.map_nil]
    rfl

end Branches

section Modifiers

variable {facts : List SemanticFact} {component : Component} {target : String}

/-- A cooldown or a fallback has a fact. -/
theorem fact_of_protection (hFacts : componentFacts strategy = .ok facts)
    (hMem : component ∈ strategy.graph.components) (hIs : isProtection component = true) :
    ∃ fact, fact ∈ factsOf facts component := by
  have hShape : ∃ shape, component.primitive ≠ "rule@1" ∧ factShape component = some shape := by
    unfold isProtection at hIs
    rw [Bool.or_eq_true, decide_eq_true_eq, decide_eq_true_eq] at hIs
    rcases hIs with hKind | hKind <;>
      exact ⟨_, by simp [hKind], by simp only [factShape, hKind]; rfl⟩
  obtain ⟨shape, hRule, hShape⟩ := hShape
  have hOwn : shapedFact component shape ∈ ownFacts component :=
    mem_ownFacts.mpr (Or.inr ⟨hRule, shape, hShape, rfl⟩)
  refine ⟨shapedFact component shape, List.mem_filter.mpr ⟨?_, by simp [shapedFact, componentRef]⟩⟩
  exact (mem_componentFacts hFacts).mpr (Or.inr (Or.inl ⟨component, hMem, hOwn⟩))

theorem protectionIds_iff (hWell : strategy.WellFormed) (hFacts : componentFacts strategy = .ok facts)
    (hMem : component ∈ strategy.graph.components) (hIs : isProtection component = true)
    {fact : SemanticFact} (hFact : fact ∈ factsOf facts component) {wanted : String → Prop} :
    ProtectionIds strategy facts wanted fact.id ↔ wanted component.id := by
  constructor
  · rintro ⟨other, hOther, -, hWanted, found, hFound, hId⟩
    obtain ⟨hIn, hPrimary⟩ := List.mem_filter.mp hFact
    obtain ⟨hFoundIn, hFoundPrimary⟩ := List.mem_filter.mp hFound
    obtain rfl := List.inj_on_of_nodup_map (nodup_factIds hWell hFacts) hFoundIn hIn hId
    have hSame : other.id = component.id := by
      rw [of_decide_eq_true hPrimary] at hFoundPrimary
      simpa [eq_comm] using hFoundPrimary
    rw [← hSame]
    exact hWanted
  · intro hWanted
    exact ⟨component, hMem, hIs, hWanted, fact, hFact, rfl⟩

/-- The modifiers of every selection are those in scope. -/
theorem mem_modifiers (hWell : strategy.WellFormed) (hFacts : componentFacts strategy = .ok facts)
    {selection : SemanticFact} {id : String} :
    id ∈ (selectionStatement (factsWithin strategy facts target) selection).modifierFactIds ↔
      ProtectionIds strategy facts (InScope strategy · target) id := by
  rw [selectionStatement, List.mem_map]
  constructor
  · rintro ⟨fact, hFact, rfl⟩
    obtain ⟨hIn, hModifier⟩ := List.mem_filter.mp hFact
    obtain ⟨hFact, name, hName, hScope⟩ := mem_factsWithin.mp hIn
    obtain ⟨component, hMem, hIs, hPrimary⟩ := (modifier_iff hWell hFacts hFact).mp hModifier
    rw [hName] at hPrimary
    cases hPrimary
    exact ⟨component, hMem, hIs, hScope, fact, List.mem_filter.mpr ⟨hFact, by simpa using hName⟩, rfl⟩
  · rintro ⟨component, hMem, hIs, hScope, fact, hOf, rfl⟩
    obtain ⟨hFact, hPrimary⟩ := List.mem_filter.mp hOf
    have hPrimary := of_decide_eq_true hPrimary
    exact ⟨fact, List.mem_filter.mpr ⟨mem_factsWithin.mpr ⟨hFact, component.id, hPrimary, hScope⟩,
      (modifier_iff hWell hFacts hFact).mpr ⟨component, hMem, hIs, hPrimary⟩⟩, rfl⟩

/-- Two properties give the same facts when they agree on every cooldown and fallback. -/
theorem protectionIds_congr (hWell : strategy.WellFormed)
    (hFacts : componentFacts strategy = .ok facts) {wanted wanted' : String → Prop} :
    (∀ id, ProtectionIds strategy facts wanted id ↔ ProtectionIds strategy facts wanted' id) ↔
      ∀ component ∈ strategy.graph.components, isProtection component = true →
        (wanted component.id ↔ wanted' component.id) := by
  constructor
  · intro hSame component hMem hIs
    obtain ⟨fact, hFact⟩ := fact_of_protection hFacts hMem hIs
    exact (protectionIds_iff hWell hFacts hMem hIs hFact).symm.trans
      ((hSame fact.id).trans (protectionIds_iff hWell hFacts hMem hIs hFact))
  · intro hAgree id
    constructor
    · rintro ⟨component, hMem, hIs, hWanted, hFact⟩
      exact ⟨component, hMem, hIs, (hAgree component hMem hIs).mp hWanted, hFact⟩
    · rintro ⟨component, hMem, hIs, hWanted, hFact⟩
      exact ⟨component, hMem, hIs, (hAgree component hMem hIs).mpr hWanted, hFact⟩

end Modifiers

section Scripts

theorem forall₂_iff {α β : Type} {R S : α → β → Prop} {P : α → Prop} {xs : List α} {ys : List β}
    (h : List.Forall₂ R xs ys) (hEach : ∀ x y, R x y → (S x y ↔ P x)) :
    List.Forall₂ S xs ys ↔ ∀ x ∈ xs, P x := by
  induction h with
  | nil => simp
  | cons hFirst _ ih => rw [List.forall₂_cons, List.forall_mem_cons, ih, hEach _ _ hFirst]

variable {facts : List SemanticFact} {entrypoint : Entrypoint} {script : LogicScript}

/-- The script of an entrypoint is made of the facts in the scope of its target. -/
def IsScriptOf (strategy : CanonicalStrategyV1) (facts : List SemanticFact)
    (entrypoint : Entrypoint) (script : LogicScript) : Prop :=
  script.statements = scriptStatements strategy entrypoint.targetComponentId
    (factsWithin strategy facts entrypoint.targetComponentId)

theorem isScriptOf_scriptOf {item : Entrypoint × Nat} {owned : Component × LogicScript}
    (h : scriptOf strategy facts item = .ok owned) : IsScriptOf strategy facts item.1 owned.2 := by
  obtain ⟨event, -, h⟩ := except_bind_ok.mp h
  obtain ⟨found, hFound, h⟩ := except_bind_ok.mp h
  have hId : found.id = item.1.targetComponentId := by
    unfold componentAt at hFound
    rcases hComponent : strategy.component? item.1.targetComponentId with _ | component
    · simp [hComponent] at hFound
    · rw [hComponent] at hFound
      cases hFound
      exact (component?_some hComponent).2
  split at h
  · cases h
    rw [IsScriptOf, ← hId]
    rfl
  · cases h

theorem isScriptOf_logic {logic : LogicSemanticProjection}
    (h : logicProjection strategy facts = .ok logic) :
    List.Forall₂ (IsScriptOf strategy facts) strategy.entrypoints logic.scripts := by
  obtain ⟨owned, hOwned, h⟩ := except_bind_ok.mp h
  cases h
  rw [← List.zipIdx_map_fst 0 strategy.entrypoints, List.forall₂_map_left_iff,
    List.forall₂_map_right_iff]
  exact (Sequence.forall₂_of_mapM hOwned).imp fun item owned => isScriptOf_scriptOf

/-- Everything but the modifiers is always as it should be. -/
theorem attributes_iff (hWell : strategy.WellFormed) (h : Accepted strategy)
    (hFacts : componentFacts strategy = .ok facts)
    (hScript : IsScriptOf strategy facts entrypoint script) :
    Attributes strategy facts entrypoint script ↔ ModifiersFit strategy entrypoint := by
  unfold IsScriptOf at hScript
  constructor
  · intro hAttributes selection hMem hIs hScope component hComponent hProtects
    have hOf := factsOf_eq hWell hFacts hMem
    rw [if_pos hIs] at hOf
    obtain ⟨fact, hFrom, hOnly⟩ := hOf
    obtain ⟨hChoice, -, -, -, hPrimary⟩ := choice_fields hFrom
    have hFact : fact ∈ facts := by
      have hIn : fact ∈ factsOf facts selection := by
        rw [hOnly]
        exact List.mem_singleton_self _
      exact (List.mem_filter.mp hIn).1
    have hWithin : fact ∈ factsWithin strategy facts entrypoint.targetComponentId :=
      mem_factsWithin.mpr ⟨hFact, selection.id, hPrimary, hScope⟩
    have hStatement : selectionStatement (factsWithin strategy facts entrypoint.targetComponentId)
        fact ∈ script.statements := by
      rw [hScript]
      exact (mem_selections.mpr ⟨fact, hWithin, hChoice, rfl⟩).1
    obtain ⟨name, hName, hIds⟩ := hAttributes.modifiers _ hStatement rfl
    have hName : fact.ref.primaryComponentId = some name := hName
    rw [hPrimary] at hName
    cases hName
    have hSame := (protectionIds_congr hWell hFacts).mp fun id =>
      (mem_modifiers hWell hFacts).symm.trans (hIds id)
    exact hSame component hComponent hProtects
  · intro hFit
    constructor
    · intro component hMem hIs hPath
      rw [hScript]
      exact selection_once hWell hFacts hMem hIs (Or.inr hPath)
    · intro statement hStatement hFamily
      rw [hScript] at hStatement
      obtain ⟨fact, hIn, hChoice, rfl⟩ := mem_selections.mp ⟨hStatement, hFamily⟩
      obtain ⟨hFact, name, hName, hScope⟩ := mem_factsWithin.mp hIn
      obtain ⟨selection, hMem, hIs, hFrom⟩ := choice_of_mem hFacts hFact hChoice
      have hPrimary := (choice_fields hFrom).2.2.2.2
      rw [hName] at hPrimary
      cases hPrimary
      refine ⟨selection.id, hName, fun id => ?_⟩
      rw [mem_modifiers hWell hFacts]
      exact (protectionIds_congr hWell hFacts).mpr (hFit selection hMem hIs hScope) id
    · rw [hScript]
      exact nodup_statements (taggedFacts hWell hFacts List.filter_sublist)
    · intro statement hStatement hControl
      rw [hScript] at hStatement ⊢
      obtain ⟨predicate, hPredicate, rfl⟩ := control_of_mem hStatement hControl
      obtain ⟨rule, hMem, hTarget, hKind, rfl⟩ := rule_of_predicate hWell h hFacts hPredicate
      rw [← hTarget] at hPredicate ⊢
      have hSome : (predicatesOf (factsWithin strategy facts rule.id)).isEmpty = false := by
        rw [List.isEmpty_eq_false_iff]
        exact List.ne_nil_of_mem hPredicate
      exact ⟨rule, hMem, rfl, branchNames hWell h hFacts hMem hKind hSome .thenBranch,
        branchNames hWell h hFacts hMem hKind hSome .otherwise⟩
    · intro statement hStatement hFamily
      rw [hScript] at hStatement
      exact branches_of_mem hStatement hFamily

theorem attributes_all_iff (hWell : strategy.WellFormed) (h : Accepted strategy)
    (hFacts : componentFacts strategy = .ok facts) {logic : LogicSemanticProjection}
    (hLogic : logicProjection strategy facts = .ok logic) :
    List.Forall₂ (Attributes strategy facts) strategy.entrypoints logic.scripts ↔
      ∀ entrypoint ∈ strategy.entrypoints, ModifiersFit strategy entrypoint :=
  forall₂_iff (isScriptOf_logic hLogic) fun _ _ => attributes_iff hWell h hFacts

/-- The scripts attribute everything as they should exactly where, for every entrypoint and every
selection in its scope, the cooldowns and fallbacks in scope are those that the selection feeds. -/
theorem scriptsAttribute_iff (hWell : strategy.WellFormed)
    (hAccepted : validateStrategyV1 strategy = .ok ⟨⟩) :
    ∃ projection, projectSemanticComposition strategy = .ok projection ∧
      (List.Forall₂ (Attributes strategy projection.facts) strategy.entrypoints
          projection.logic.scripts ↔
        ∀ entrypoint ∈ strategy.entrypoints, ModifiersFit strategy entrypoint) := by
  have h := validate_ok_iff.mp hAccepted
  obtain ⟨projection, hProjected⟩ := h.projects hWell
  obtain ⟨hFacts, -, hLogic⟩ := projection_parts hProjected
  exact ⟨projection, hProjected, attributes_all_iff hWell h hFacts hLogic⟩

/-- A ranked selection with a cooldown beside a random one without. -/
def coolingPair : CanonicalStrategyV1 where
  metadata := { name := "Cooling pair" }
  definitions := { assetSets := [⟨"pool", ["SPY", "QQQ", "TLT"]⟩] }
  graph :=
    { components :=
        [{ id := "schedule", primitive := "daily@1" },
          { id := "assets", primitive := "asset_set@1"
            config := Dict.empty.set "asset_set_ref" (.text "pool") },
          { id := "momentum", primitive := "trailing_return@1"
            config := Dict.empty.set "lookback_bars" (.integer 63) },
          { id := "rank", primitive := "rank@1" },
          { id := "leader", primitive := "top_n@1"
            config := Dict.empty.set "count" (.integer 1) },
          { id := "cooling", primitive := "cooldown@1"
            config := Dict.empty.set "duration" (.integer 5) },
          { id := "leader_weights", primitive := "equal_weight@1"
            config := Dict.empty.set "total" (.text "0.5") },
          { id := "pick", primitive := "random_select@1"
            config := Dict.empty.set "count" (.integer 1) },
          { id := "pick_weights", primitive := "equal_weight@1"
            config := Dict.empty.set "total" (.text "0.5") },
          { id := "merge", primitive := "merge_targets@1" },
          { id := "trade", primitive := "rebalance@1" }]
      connections :=
        [⟨⟨"assets", "assets"⟩, ⟨"momentum", "assets"⟩⟩,
          ⟨⟨"momentum", "scores"⟩, ⟨"rank", "scores"⟩⟩,
          ⟨⟨"rank", "ranked"⟩, ⟨"leader", "ranked"⟩⟩,
          ⟨⟨"leader", "selected"⟩, ⟨"cooling", "candidates"⟩⟩,
          ⟨⟨"cooling", "eligible"⟩, ⟨"leader_weights", "assets"⟩⟩,
          ⟨⟨"assets", "assets"⟩, ⟨"pick", "assets"⟩⟩,
          ⟨⟨"pick", "selected"⟩, ⟨"pick_weights", "assets"⟩⟩,
          ⟨⟨"leader_weights", "targets"⟩, ⟨"merge", "left"⟩⟩,
          ⟨⟨"pick_weights", "targets"⟩, ⟨"merge", "right"⟩⟩,
          ⟨⟨"merge", "targets"⟩, ⟨"trade", "targets"⟩⟩] }
  entrypoints := [⟨"schedule", "trade"⟩]

theorem coolingPair_wellFormed : coolingPair.WellFormed :=
  ⟨by decide, by decide, by decide, by decide, by decide, by decide, by decide⟩

theorem coolingPair_valid : validateStrategyV1 coolingPair = .ok ⟨⟩ := by
  decide +kernel

theorem coolingPair_attributes : ∃ projection,
    projectSemanticComposition coolingPair = .ok projection ∧
      (List.Forall₂ (Attributes coolingPair projection.facts) coolingPair.entrypoints
          projection.logic.scripts ↔
        ∀ entrypoint ∈ coolingPair.entrypoints, ModifiersFit coolingPair entrypoint) :=
  scriptsAttribute_iff coolingPair_wellFormed coolingPair_valid

/-- The random selection is said to have the cooldown of the other one. -/
theorem coolingPair_misattributes : ∃ projection,
    projectSemanticComposition coolingPair = .ok projection ∧
      ¬ List.Forall₂ (Attributes coolingPair projection.facts) coolingPair.entrypoints
        projection.logic.scripts := by
  have h := validate_ok_iff.mp coolingPair_valid
  obtain ⟨projection, hProjected⟩ := h.projects coolingPair_wellFormed
  obtain ⟨hFacts, -, hLogic⟩ := projection_parts hProjected
  refine ⟨projection, hProjected, fun hAll => ?_⟩
  have hFit := (attributes_all_iff coolingPair_wellFormed h hFacts hLogic).mp hAll _
    List.mem_cons_self
  have hCooling := hFit _ (List.mem_of_getElem? (i := 7) rfl) (by decide)
    (Or.inr (mem_ancestors.mp (by decide +kernel))) _ (List.mem_of_getElem? (i := 5) rfl) (by decide)
  have hInScope : InScope coolingPair "cooling" "trade" :=
    Or.inr (mem_ancestors.mp (by decide +kernel))
  have hOutside : "pick" ∉ ancestors coolingPair "cooling" := by decide +kernel
  exact hOutside (mem_ancestors.mpr (hCooling.mp hInScope))

end Scripts

end RuleTrade.V1
