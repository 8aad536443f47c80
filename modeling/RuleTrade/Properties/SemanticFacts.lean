import RuleTrade.Properties.SemanticGraph

/-! The facts of a strategy: one for each selection, those of each component's primitive and one
for each piece of state, all of different ids. -/

namespace RuleTrade.V1

open Library

section Tagged

/-- A tag, a colon and the rest. -/
def tagged (tag rest : String) : String := tag ++ ":" ++ rest

def Plain (text : String) : Prop := ':' ∉ text.toList

instance (text : String) : Decidable (Plain text) := inferInstanceAs (Decidable (_ ∉ _))

variable {tag tag' rest rest' : String}

theorem toList_tagged : (tagged tag rest).toList = tag.toList ++ ':' :: rest.toList := by
  simp [tagged]

theorem not_plain_tagged : ¬ Plain (tagged tag rest) := by
  simp [Plain, toList_tagged]

/-- The tag ends at the first colon. -/
theorem tagged_inj (hTag : Plain tag) (hTag' : Plain tag') (h : tagged tag rest = tagged tag' rest') :
    tag = tag' ∧ rest = rest' := by
  have hLists := congrArg String.toList h
  rw [toList_tagged, toList_tagged] at hLists
  rcases List.append_eq_append_iff.mp hLists with ⟨more, hMore, hRest⟩ | ⟨more, hMore, hRest⟩
  · cases more with
    | nil =>
        rw [List.append_nil] at hMore
        rw [List.nil_append, List.cons.injEq] at hRest
        exact ⟨String.toList_inj.mp hMore.symm, String.toList_inj.mp hRest.2⟩
    | cons c more =>
        rw [List.cons_append, List.cons.injEq] at hRest
        apply absurd _ hTag'
        rw [hMore, hRest.1]
        simp
  · cases more with
    | nil =>
        rw [List.append_nil] at hMore
        rw [List.nil_append, List.cons.injEq] at hRest
        exact ⟨String.toList_inj.mp hMore, (String.toList_inj.mp hRest.2).symm⟩
    | cons c more =>
        rw [List.cons_append, List.cons.injEq] at hRest
        apply absurd _ hTag
        rw [hMore, hRest.1]
        simp

theorem plain_of_isIdentifier {text : String} (h : isIdentifierText text = true) : Plain text := by
  unfold isIdentifierText at h
  unfold Plain
  intro hColon
  rcases hText : text.toList with _ | ⟨c, rest⟩
  · rw [hText] at hColon
    cases hColon
  · rw [hText] at h hColon
    simp only [Bool.and_eq_true, List.all_eq_true, Bool.or_eq_true] at h
    rcases List.mem_cons.mp hColon with rfl | hRest
    · exact absurd h.2.1 (by decide)
    · exact absurd (h.2.2 _ hRest) (by decide)

theorem plain_toString (n : Nat) : Plain (toString n) := by
  intro hColon
  have hDigit := Nat.isDigit_of_mem_toDigits (b := 10) (by decide) (by decide)
    (show ':' ∈ Nat.toDigits 10 n by simpa using hColon)
  exact absurd hDigit (by decide)

theorem toString_inj {m n : Nat} (h : toString m = toString n) : m = n := by
  have hDigits : Nat.toDigits 10 m = Nat.toDigits 10 n := by
    simpa using congrArg String.toList h
  rw [← Nat.ofDigitChars_ten_toDigits (n := m), hDigits, Nat.ofDigitChars_ten_toDigits]

end Tagged

section Own

variable {component : Component} {fact : SemanticFact} {shape : FactShape}

/-- The id of a fact that a component has by its primitive. -/
def OwnId (component id : String) : Prop :=
  ∃ tag rest, id = tagged tag rest ∧ Plain tag ∧ tag ≠ "selection" ∧ tag ≠ "state" ∧
    (rest = component ∨ ∃ more, rest = tagged component more)

theorem OwnId.component_eq {first second id : String} (hFirst : Plain first) (hSecond : Plain second)
    (h : OwnId first id) (h' : OwnId second id) : first = second := by
  obtain ⟨tag, rest, rfl, hTag, -, -, hRest⟩ := h
  obtain ⟨tag', rest', hSame, hTag', -, -, hRest'⟩ := h'
  obtain ⟨-, rfl⟩ := tagged_inj hTag hTag' hSame
  rcases hRest with rfl | ⟨more, rfl⟩ <;> rcases hRest' with hEq | ⟨more', hEq⟩
  · exact hEq
  · exact absurd (hEq ▸ hFirst) not_plain_tagged
  · exact absurd (hEq ▸ hSecond) not_plain_tagged
  · exact (tagged_inj hFirst hSecond hEq).1

theorem actionFactId_then (index : Nat) : actionFactId component .thenBranch index =
    tagged "action" (tagged component.id (toString index)) := by
  simp [actionFactId, tagged, String.append_assoc]

theorem actionFactId_otherwise (index : Nat) : actionFactId component .otherwise index =
    tagged "action" (tagged component.id (tagged "otherwise" (toString index))) := by
  simp only [actionFactId, tagged, String.append_assoc]
  rfl

theorem actionFactId_eq (component : Component) (branch : ActionBranch) (index : Nat) : ∃ more,
    actionFactId component branch index = tagged "action" (tagged component.id more) := by
  cases branch with
  | thenBranch => exact ⟨_, actionFactId_then index⟩
  | otherwise => exact ⟨_, actionFactId_otherwise index⟩

theorem actionFactId_inj {branch branch' : ActionBranch} {index index' : Nat}
    (hPlain : Plain component.id)
    (h : actionFactId component branch index = actionFactId component branch' index') :
    branch = branch' ∧ index = index' := by
  have hTail : ∀ {first second : String},
      tagged "action" (tagged component.id first) = tagged "action" (tagged component.id second) →
      first = second := by
    intro first second hSame
    exact (tagged_inj hPlain hPlain (tagged_inj (by decide) (by decide) hSame).2).2
  cases branch <;> cases branch' <;>
    simp only [actionFactId_then, actionFactId_otherwise] at h
  · exact ⟨rfl, toString_inj (hTail h)⟩
  · exact absurd (hTail h ▸ plain_toString index) not_plain_tagged
  · exact absurd ((hTail h).symm ▸ plain_toString index') not_plain_tagged
  · exact ⟨rfl, toString_inj (tagged_inj (by decide) (by decide) (hTail h)).2⟩

theorem factShape_tag (h : factShape component = some shape) :
    Plain shape.tag ∧ shape.tag ≠ "selection" ∧ shape.tag ≠ "state" := by
  unfold factShape at h
  split at h <;> cases h <;> dsimp only <;> decide

/-- The actions of a branch. -/
def Component.branch (component : Component) : ActionBranch → List Action
  | .thenBranch => component.actions
  | .otherwise => component.elseActions

theorem mem_ruleFacts : fact ∈ ruleFacts component ↔
    component.condition.isSome ∧ fact = predicateFact component ∨
      ∃ branch, ∃ item ∈ (component.branch branch).zipIdx,
        fact = actionFact component branch item := by
  unfold ruleFacts
  rw [List.mem_append, List.mem_append, List.mem_map, List.mem_map, or_assoc]
  apply or_congr
  · cases component.condition <;> simp
  · constructor
    · rintro (⟨item, hItem, rfl⟩ | ⟨item, hItem, rfl⟩)
      · exact ⟨.thenBranch, item, hItem, rfl⟩
      · exact ⟨.otherwise, item, hItem, rfl⟩
    · rintro ⟨_ | _, item, hItem, rfl⟩
      · exact Or.inl ⟨item, hItem, rfl⟩
      · exact Or.inr ⟨item, hItem, rfl⟩

theorem mem_ownFacts : fact ∈ ownFacts component ↔
    component.primitive = "rule@1" ∧ fact ∈ ruleFacts component ∨
      component.primitive ≠ "rule@1" ∧
        ∃ shape, factShape component = some shape ∧ fact = shapedFact component shape := by
  unfold ownFacts
  by_cases hRule : component.primitive = "rule@1"
  · simp [hRule]
  · simp [hRule, eq_comm]

/-- What the facts of a component have in common. -/
theorem own_of_mem (h : fact ∈ ownFacts component) :
    OwnId component.id fact.id ∧ fact.ref.primaryComponentId = some component.id ∧
      fact.ref.relatedComponentIds = [] := by
  rcases mem_ownFacts.mp h with ⟨-, hRule⟩ | ⟨-, shape, hShape, rfl⟩
  · rcases mem_ruleFacts.mp hRule with ⟨-, rfl⟩ | ⟨branch, item, -, rfl⟩
    · exact ⟨⟨"predicate", component.id, rfl, by decide, by decide, by decide, Or.inl rfl⟩, rfl, rfl⟩
    · obtain ⟨more, hId⟩ := actionFactId_eq component branch item.2
      exact ⟨⟨"action", _, hId, by decide, by decide, by decide, Or.inr ⟨more, rfl⟩⟩, rfl, rfl⟩
  · obtain ⟨hPlain, hSelection, hState⟩ := factShape_tag hShape
    exact ⟨⟨shape.tag, component.id, rfl, hPlain, hSelection, hState, Or.inl rfl⟩, rfl, rfl⟩

theorem nodup_actionIds (hPlain : Plain component.id) (branch : ActionBranch) :
    (((component.branch branch).zipIdx.map (actionFact component branch)).map
      SemanticFact.id).Nodup := by
  rw [List.map_map, show SemanticFact.id ∘ actionFact component branch =
    actionFactId component branch ∘ Prod.snd from rfl, ← List.map_map, List.zipIdx_map_snd]
  apply List.Nodup.map_on _ List.nodup_range'
  intro i _ j _ hSame
  exact (actionFactId_inj hPlain hSame).2

theorem mem_actionIds (branch : ActionBranch) {id : String} (h : id ∈
    ((component.branch branch).zipIdx.map (actionFact component branch)).map SemanticFact.id) :
    ∃ index, id = actionFactId component branch index := by
  obtain ⟨_, hItem, rfl⟩ := List.mem_map.mp h
  obtain ⟨item, -, rfl⟩ := List.mem_map.mp hItem
  exact ⟨item.2, rfl⟩

theorem predicateFact_id_ne (branch : ActionBranch) (index : Nat) :
    (predicateFact component).id ≠ actionFactId component branch index := by
  intro hSame
  obtain ⟨more, hId⟩ := actionFactId_eq component branch index
  have hTag := (@tagged_inj "predicate" _ _ _ (by decide) (by decide) (hSame.trans hId)).1
  exact absurd hTag (by decide)

theorem nodup_ruleIds (hPlain : Plain component.id) :
    ((ruleFacts component).map SemanticFact.id).Nodup := by
  unfold ruleFacts
  rw [List.map_append, List.map_append, List.append_assoc, List.nodup_append, List.nodup_append]
  refine ⟨?_, ⟨nodup_actionIds hPlain .thenBranch, nodup_actionIds hPlain .otherwise, ?_⟩, ?_⟩
  · cases component.condition <;> simp
  · intro first hFirst second hSecond hSame
    obtain ⟨index, rfl⟩ := mem_actionIds .thenBranch hFirst
    obtain ⟨other, rfl⟩ := mem_actionIds .otherwise hSecond
    cases (actionFactId_inj hPlain hSame).1
  · intro first hFirst second hSecond hSame
    have hId : first = (predicateFact component).id := by
      cases hCondition : component.condition <;> simp_all
    rw [hId] at hSame
    rcases List.mem_append.mp hSecond with hThen | hOtherwise
    · obtain ⟨index, rfl⟩ := mem_actionIds .thenBranch hThen
      exact predicateFact_id_ne _ _ hSame
    · obtain ⟨index, rfl⟩ := mem_actionIds .otherwise hOtherwise
      exact predicateFact_id_ne _ _ hSame

theorem nodup_ownIds (hPlain : Plain component.id) :
    ((ownFacts component).map SemanticFact.id).Nodup := by
  unfold ownFacts
  split
  · exact nodup_ruleIds hPlain
  · cases factShape component <;> simp

/-- The facts of a rule's actions, in the order of its branches. -/
def actionFacts (component : Component) : List SemanticFact :=
  component.actions.zipIdx.map (actionFact component .thenBranch) ++
    component.elseActions.zipIdx.map (actionFact component .otherwise)

theorem ruleFacts_eq (component : Component) : ruleFacts component =
    (if component.condition.isSome then [predicateFact component] else []) ++
      actionFacts component := by
  rw [ruleFacts, actionFacts, List.append_assoc]

theorem detail_actionFacts (component : Component) :
    (actionFacts component).map (fun fact => fact.detail.map Prod.fst) =
      component.branchActions.map some := by
  have hBranch : ∀ (items : List Action) (branch : ActionBranch),
      (items.zipIdx.map (actionFact component branch)).map (fun fact => fact.detail.map Prod.fst) =
        items.map some := by
    intro items branch
    rw [List.map_map]
    exact (List.map_map (f := Prod.fst) (g := some)).symm.trans
      (congrArg (List.map some) (List.zipIdx_map_fst 0 items))
  rw [actionFacts, List.map_append, hBranch, hBranch, Component.branchActions, List.map_append]

theorem nodup_actionFacts (hPlain : Plain component.id) :
    ((actionFacts component).map SemanticFact.id).Nodup := by
  have hRule := nodup_ruleIds hPlain
  rw [ruleFacts_eq, List.map_append] at hRule
  exact hRule.of_append_right

end Own

section Facts

variable {strategy : CanonicalStrategyV1} {component : Component} {fact : SemanticFact}
  {facts : List SemanticFact}

theorem selectionFact_ok (h : selectionFact strategy component = .ok fact) :
    ∃ pipeline, pipelineOf strategy component.id = .ok pipeline ∧
      fact = pipelineFact component pipeline := by
  obtain ⟨pipeline, hPipeline, h⟩ := except_bind_ok.mp h
  obtain ⟨count, -, h⟩ := except_bind_ok.mp h
  obtain ⟨done, -, h⟩ := except_bind_ok.mp h
  exact ⟨pipeline, hPipeline, (Except.ok.inj h).symm⟩

/-- The three parts of the facts. -/
theorem componentFacts_ok (h : componentFacts strategy = .ok facts) :
    ∃ selections, List.Forall₂ (fun component fact => selectionFact strategy component = .ok fact)
        (strategy.graph.components.filter isSelection) selections ∧
      facts = selections ++ strategy.graph.components.flatMap ownFacts ++
        strategy.definitions.state.map stateFact := by
  obtain ⟨selections, hSelections, h⟩ := except_bind_ok.mp h
  obtain ⟨others, hOthers, h⟩ := except_bind_ok.mp h
  refine ⟨selections, Sequence.forall₂_of_mapM hSelections, ?_⟩
  have hEach : List.Forall₂ (fun component own => ownFacts component = own)
      strategy.graph.components others := by
    apply (Sequence.forall₂_of_mapM hOthers).imp
    intro component own hOwn
    obtain ⟨done, -, hOwn⟩ := except_bind_ok.mp hOwn
    exact Except.ok.inj hOwn
  have hOwn : strategy.graph.components.map ownFacts = others := by
    rw [← List.forall₂_eq_eq_eq]
    exact List.forall₂_map_left_iff.mpr hEach
  rw [← Except.ok.inj h, ← hOwn]
  rfl

/-- A fact is that of a selection, one of a component's own or that of a piece of state. -/
theorem mem_componentFacts (h : componentFacts strategy = .ok facts) : fact ∈ facts ↔
    (∃ component ∈ strategy.graph.components, isSelection component = true ∧
        selectionFact strategy component = .ok fact) ∨
      (∃ component ∈ strategy.graph.components, fact ∈ ownFacts component) ∨
      ∃ definition ∈ strategy.definitions.state, fact = stateFact definition := by
  obtain ⟨selections, hSelections, rfl⟩ := componentFacts_ok h
  rw [List.mem_append, List.mem_append, or_assoc, List.mem_flatMap, List.mem_map]
  apply or_congr
  · constructor
    · intro hMem
      obtain ⟨component, hComponent, hFact⟩ := Sequence.exists_left hSelections hMem
      exact ⟨component, (List.mem_filter.mp hComponent).1, (List.mem_filter.mp hComponent).2, hFact⟩
    · rintro ⟨component, hComponent, hIs, hFact⟩
      obtain ⟨found, hFound, hSame⟩ :=
        Sequence.exists_right hSelections (List.mem_filter.mpr ⟨hComponent, hIs⟩)
      rw [hFact] at hSame
      cases hSame
      exact hFound
  · apply or_congr Iff.rfl
    simp only [eq_comm]

theorem plain_of_mem (hWell : strategy.WellFormed)
    (hMem : component ∈ strategy.graph.components) : Plain component.id :=
  plain_of_isIdentifier (hWell.identifiers _ (List.mem_map_of_mem hMem))

theorem nodup_selectionIds (hWell : strategy.WellFormed) {selections : List SemanticFact}
    (h : List.Forall₂ (fun component fact => selectionFact strategy component = .ok fact)
      (strategy.graph.components.filter isSelection) selections) :
    (selections.map SemanticFact.id).Nodup := by
  have hIds : selections.map SemanticFact.id =
      (strategy.graph.components.filter isSelection).map fun component =>
        tagged "selection" component.id := by
    rw [← List.forall₂_eq_eq_eq, List.forall₂_map_left_iff, List.forall₂_map_right_iff]
    apply h.flip.imp
    intro fact component hFact
    obtain ⟨pipeline, -, rfl⟩ := selectionFact_ok hFact
    rfl
  rw [hIds]
  have hUnique : ((strategy.graph.components.filter isSelection).map Component.id).Nodup :=
    hWell.components.sublist (List.filter_sublist.map _)
  rw [show (fun component => tagged "selection" component.id) =
    tagged "selection" ∘ Component.id from rfl, ← List.map_map]
  apply hUnique.map
  intro first second hSame
  exact (tagged_inj (by decide) (by decide) hSame).2

/-- No two facts have one id. -/
theorem nodup_factIds (hWell : strategy.WellFormed) (h : componentFacts strategy = .ok facts) :
    (facts.map SemanticFact.id).Nodup := by
  obtain ⟨selections, hSelections, rfl⟩ := componentFacts_ok h
  have hSelectionId : ∀ id ∈ selections.map SemanticFact.id, ∃ rest, id = tagged "selection" rest := by
    intro id hId
    obtain ⟨fact, hFact, rfl⟩ := List.mem_map.mp hId
    obtain ⟨component, -, hFrom⟩ := Sequence.exists_left hSelections hFact
    obtain ⟨pipeline, -, rfl⟩ := selectionFact_ok hFrom
    exact ⟨component.id, rfl⟩
  have hOwnId : ∀ id ∈ (strategy.graph.components.flatMap ownFacts).map SemanticFact.id,
      ∃ component, OwnId component id := by
    intro id hId
    obtain ⟨fact, hFact, rfl⟩ := List.mem_map.mp hId
    obtain ⟨component, -, hOwn⟩ := List.mem_flatMap.mp hFact
    exact ⟨component.id, (own_of_mem hOwn).1⟩
  have hStateId : ∀ id ∈ (strategy.definitions.state.map stateFact).map SemanticFact.id,
      ∃ rest, id = tagged "state" rest := by
    intro id hId
    obtain ⟨fact, hFact, rfl⟩ := List.mem_map.mp hId
    obtain ⟨definition, -, rfl⟩ := List.mem_map.mp hFact
    exact ⟨definition.id, rfl⟩
  rw [List.map_append, List.map_append, List.nodup_append, List.nodup_append]
  refine ⟨⟨nodup_selectionIds hWell hSelections, ?_, ?_⟩, ?_, ?_⟩
  · rw [List.map_flatMap, List.nodup_flatMap]
    refine ⟨fun component hMem => nodup_ownIds (plain_of_mem hWell hMem), ?_⟩
    have hDistinct := List.pairwise_map.mp hWell.components
    apply hDistinct.imp_of_mem
    intro first second hFirst hSecond hNe id hInFirst hInSecond
    obtain ⟨fact, hFact, rfl⟩ := List.mem_map.mp hInFirst
    obtain ⟨other, hOther, hSame⟩ := List.mem_map.mp hInSecond
    exact hNe ((own_of_mem hFact).1.component_eq (plain_of_mem hWell hFirst)
      (plain_of_mem hWell hSecond) (hSame ▸ (own_of_mem hOther).1))
  · rintro _ hFirst _ hSecond rfl
    obtain ⟨rest, hTagged⟩ := hSelectionId _ hFirst
    obtain ⟨component, tag, other, hOther, hPlain, hNe, -⟩ := hOwnId _ hSecond
    exact hNe (tagged_inj hPlain (by decide) (hOther.symm.trans hTagged)).1
  · rw [List.map_map, show SemanticFact.id ∘ stateFact = tagged "state" ∘ StateDefinition.id from rfl,
      ← List.map_map]
    apply hWell.state.map
    intro first second hSame
    exact (tagged_inj (by decide) (by decide) hSame).2
  · rintro _ hFirst _ hSecond rfl
    obtain ⟨rest, hTagged⟩ := hStateId _ hSecond
    rcases List.mem_append.mp hFirst with hSelection | hOwn
    · obtain ⟨other, hOther⟩ := hSelectionId _ hSelection
      have hTag := (@tagged_inj "state" "selection" _ _ (by decide) (by decide)
        (hTagged.symm.trans hOther)).1
      exact absurd hTag (by decide)
    · obtain ⟨component, tag, other, hOther, hPlain, -, hNe, -⟩ := hOwnId _ hOwn
      exact hNe (tagged_inj hPlain (by decide) (hOther.symm.trans hTagged)).1

/-- The facts that have a component as their primary one. -/
def factsOf (facts : List SemanticFact) (component : Component) : List SemanticFact :=
  facts.filter fun fact => fact.ref.primaryComponentId = some component.id

theorem ownFacts_of_selection (hIs : isSelection component = true) :
    ownFacts component = [] := by
  unfold isSelection at hIs
  rw [Bool.or_eq_true, decide_eq_true_eq, decide_eq_true_eq] at hIs
  rcases hIs with hKind | hKind <;> simp [ownFacts, factShape, hKind]

/-- The facts of a component are those it has by its primitive, or the fact of a selection. -/
theorem factsOf_eq (hWell : strategy.WellFormed) (h : componentFacts strategy = .ok facts)
    (hMem : component ∈ strategy.graph.components) :
    if isSelection component then
      ∃ fact, selectionFact strategy component = .ok fact ∧ factsOf facts component = [fact]
    else factsOf facts component = ownFacts component := by
  have hUnique := nodup_factIds hWell h
  obtain ⟨selections, hSelections, rfl⟩ := componentFacts_ok h
  have hState : (strategy.definitions.state.map stateFact).filter
      (fun fact => fact.ref.primaryComponentId = some component.id) = [] := by
    rw [List.filter_eq_nil_iff]
    intro fact hFact
    obtain ⟨definition, -, rfl⟩ := List.mem_map.mp hFact
    simp [stateFact]
  have hOwn : (strategy.graph.components.flatMap ownFacts).filter
      (fun fact => fact.ref.primaryComponentId = some component.id) = ownFacts component := by
    rw [List.filter_flatMap, Sequence.flatMap_of_nodup hWell.components hMem]
    · rw [List.filter_eq_self]
      intro fact hFact
      simp [(own_of_mem hFact).2.1]
    · intro other _ hOther
      rw [List.filter_eq_nil_iff]
      intro fact hFact
      simp [(own_of_mem hFact).2.1, hOther]
  unfold factsOf
  rw [List.filter_append, List.filter_append, hState, hOwn, List.append_nil]
  have hSelected : ∀ fact ∈ selections, fact.ref.primaryComponentId = some component.id →
      isSelection component = true ∧ selectionFact strategy component = .ok fact := by
    intro fact hFact hPrimary
    obtain ⟨found, hFound, hFrom⟩ := Sequence.exists_left hSelections hFact
    obtain ⟨hIn, hIs⟩ := List.mem_filter.mp hFound
    obtain ⟨pipeline, -, rfl⟩ := selectionFact_ok hFrom
    have hSame : found = component :=
      List.inj_on_of_nodup_map hWell.components hIn hMem (Option.some.inj hPrimary)
    exact ⟨hSame ▸ hIs, hSame ▸ hFrom⟩
  split
  · next hIs =>
      obtain ⟨fact, hFact, hFrom⟩ :=
        Sequence.exists_right hSelections (List.mem_filter.mpr ⟨hMem, hIs⟩)
      refine ⟨fact, hFrom, ?_⟩
      rw [ownFacts_of_selection hIs, List.append_nil, Sequence.eq_singleton_iff]
      · constructor
        · obtain ⟨pipeline, -, rfl⟩ := selectionFact_ok hFrom
          exact List.mem_filter.mpr ⟨hFact, by simp [pipelineFact, componentRef]⟩
        · intro other hOther
          obtain ⟨hOther, hPrimary⟩ := List.mem_filter.mp hOther
          have hSame := (hSelected other hOther (by simpa using hPrimary)).2
          rw [hFrom] at hSame
          exact (Except.ok.inj hSame).symm
      · rw [List.map_append, List.map_append, List.append_assoc] at hUnique
        exact (List.Nodup.of_map _ hUnique.of_append_left).filter _
  · next hIs =>
      rw [List.filter_eq_nil_iff.mpr, List.nil_append]
      intro fact hFact hPrimary
      exact hIs (hSelected fact hFact (by simpa using hPrimary)).1

theorem factsOf_rule (hWell : strategy.WellFormed) (h : componentFacts strategy = .ok facts)
    (hMem : component ∈ strategy.graph.components) (hRule : component.primitive = "rule@1") :
    factsOf facts component = ruleFacts component := by
  have hFacts := factsOf_eq hWell h hMem
  have hIs : isSelection component = false := by simp [isSelection, hRule]
  rw [hIs, if_neg (by decide), ownFacts, if_pos hRule] at hFacts
  exact hFacts

end Facts

end RuleTrade.V1
