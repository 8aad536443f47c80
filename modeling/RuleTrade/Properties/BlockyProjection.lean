import RuleTrade.Properties.BlockyStatements
import RuleTrade.Strategy.Fragments

/-! The Blocky view against the meaning of a Program. In an accepted Program the
layout has distinct names, known parents and every name of its outline, so a
condition or a value has an item exactly where some place the view draws holds
it. -/

namespace RuleTrade

open Library

/-- The Blocky view omits no meaning of the Program: every statement is the
address of exactly one item under the item of the statement around it, every
condition and value that is evaluated is the address of an item, and the Rules
view lists the statements depth first. -/
structure OmitsNoMeaning (program : SemanticProgram) (blocky rules : ProjectionManifest) :
    Prop where
  statements : ∀ entry ∈ program.enclosed, ∃! item, item ∈ blocky.items ∧
    item.meaning = (.statement, entry.1) ∧ item.parentId = some (program.itemAround entry.2)
  meanings : ∀ meaning ∈ program.evaluated, ∃ item ∈ blocky.items, item.meaning = meaning
  depthFirst : (rules.items.filter (fun item => item.role ≠ .fallback)).map
    (fun item => item.meaning) = program.enclosed.map (fun entry => (.statement, entry.1))

section Names

theorem colon_notMem {text : String} (h : isIdentifier text = true) : ':' ∉ text.toList := by
  unfold isIdentifier at h
  split at h
  · exact absurd h Bool.false_ne_true
  · rename_i first rest hText
    rw [hText]
    intro hMem
    rw [Bool.and_eq_true, List.all_eq_true] at h
    rcases List.mem_cons.mp hMem with rfl | hMem
    · exact absurd h.1 (by decide)
    · exact absurd (h.2 _ hMem) (by decide)

/-- The name of a statement is no name with a further part. -/
theorem statement_text_ne {id part rest : String} (h : isIdentifier id = true)
    (hPart : ':' ∈ part.toList) : "blocky:" ++ id ≠ "blocky:" ++ (part ++ rest) := by
  intro hSame
  apply colon_notMem h
  rw [(String.append_right_inj _).mp hSame, String.toList_append]
  exact List.mem_append_left _ hPart

theorem statement_ne_value {id rest : String} (h : isIdentifier id = true) :
    "blocky:" ++ id ≠ "blocky:value:" ++ rest := by
  rw [show "blocky:value:" = "blocky:" ++ "value:" from rfl, String.append_assoc]
  exact statement_text_ne h (by decide)

theorem statement_ne_condition {id rest : String} (h : isIdentifier id = true) :
    "blocky:" ++ id ≠ "blocky:condition:" ++ rest := by
  rw [show "blocky:condition:" = "blocky:" ++ "condition:" from rfl, String.append_assoc]
  exact statement_text_ne h (by decide)

theorem statement_ne_fallback {id rest : String} (h : isIdentifier id = true) :
    "blocky:" ++ id ≠ "blocky:fallback:" ++ rest := by
  rw [show "blocky:fallback:" = "blocky:" ++ "fallback:" from rfl, String.append_assoc]
  exact statement_text_ne h (by decide)

theorem statement_ne_context {id rest : String} (h : isIdentifier id = true) :
    "blocky:" ++ id ≠ "blocky:context:" ++ rest := by
  rw [show "blocky:context:" = "blocky:" ++ "context:" from rfl, String.append_assoc]
  exact statement_text_ne h (by decide)

theorem context_ne_value {a b : String} : "blocky:context:" ++ a ≠ "blocky:value:" ++ b := by
  intro h
  simpa [String.toList_append] using congrArg String.toList h

theorem context_ne_condition {a b : String} :
    "blocky:context:" ++ a ≠ "blocky:condition:" ++ b := by
  intro h
  simpa [String.toList_append] using congrArg String.toList h

theorem context_ne_fallback {a b : String} : "blocky:context:" ++ a ≠ "blocky:fallback:" ++ b := by
  intro h
  simpa [String.toList_append] using congrArg String.toList h

theorem fallback_ne_value {a b : String} : "blocky:fallback:" ++ a ≠ "blocky:value:" ++ b := by
  intro h
  simpa [String.toList_append] using congrArg String.toList h

theorem fallback_ne_condition {a b : String} :
    "blocky:fallback:" ++ a ≠ "blocky:condition:" ++ b := by
  intro h
  simpa [String.toList_append] using congrArg String.toList h

end Names

section Layout

variable {decimalText : ℚ → String} {strategy : CanonicalStrategy} {program : SemanticProgram}

theorem blockyOutline_eq (hProgram : strategy.program = some program) :
    blockyOutline decimalText strategy = .node (portfolioBlock program.semanticId)
      (topOutlines decimalText program.statements 0) := by
  simp only [blockyOutline, CanonicalStrategy.projectedId, hProgram]

theorem entries_portfolio (strategyId : String) (children : List (Outline BlockyBlock)) :
    Outline.entries BlockyBlock.id none (.node (portfolioBlock strategyId) children) =
      (portfolioBlock strategyId, none) ::
        Outline.allEntries BlockyBlock.id (some ("blocky:context:" ++ strategyId)) children := rfl

/-- A node is the portfolio, drawn from an addressed object of the Program, or a
statement or fallback. -/
theorem nodes_blockyOutline (hProgram : strategy.program = some program) :
    ∀ n ∈ (blockyOutline decimalText strategy).nodes,
      n.content = portfolioBlock program.semanticId ∨
        Traced (addressedObjects program.document) n ∨ n.content.Structural := by
  intro n hn
  rw [blockyOutline_eq hProgram] at hn
  rcases List.mem_cons.mp hn with rfl | hn
  · exact .inl rfl
  · right
    apply (nodes_topOutlines decimalText program.statements 0 n hn).imp_left
    exact fun h => h.mono (addressedObjects_field "statements" (by simp))

theorem traced_of_shared (hProgram : strategy.program = some program) {n : Outline BlockyBlock}
    (hn : n ∈ (blockyOutline decimalText strategy).nodes) (hShared : n.content.shared = true) :
    Traced (addressedObjects program.document) n := by
  rcases nodes_blockyOutline hProgram n hn with hPortfolio | hTraced | hStructural
  · rw [hPortfolio] at hShared
    exact absurd hShared Bool.false_ne_true
  · exact hTraced
  · exact absurd (hStructural.unshared.symm.trans hShared) Bool.false_ne_true

theorem sharesBelow_blockyOutline (hProgram : strategy.program = some program) :
    Outline.SharesBelow BlockyBlock.shared (blockyOutline decimalText strategy) := by
  intro n hn hShared c hc
  exact ((traced_of_shared hProgram hn hShared).below c hc).isShared

/-- The shared nodes are what the Program draws. -/
theorem drawn_blockyOutline (hProgram : strategy.program = some program) :
    ((blockyOutline decimalText strategy).nodes.filter (fun n => n.content.shared)).map
      (fun n => n.content.meaning) = program.drawn := by
  rw [blockyOutline_eq hProgram, Outline.nodes, List.filter_cons_of_neg]
  · exact drawn_topOutlines decimalText program.statements 0
  · exact Bool.false_ne_true

theorem itemAround_some (id : String) : program.itemAround (some id) = "blocky:" ++ id := rfl

theorem statementEntries_blockyOutline (hProgram : strategy.program = some program) :
    statementEntries (Outline.entries BlockyBlock.id none (blockyOutline decimalText strategy)) =
      program.enclosed.map
        (fun entry => ((.statement, entry.1), some (program.itemAround entry.2))) := by
  rw [blockyOutline_eq hProgram, Outline.entries]
  exact (entries_topOutlines decimalText program.itemAround itemAround_some program.statements 0).1

theorem fallbackEntries_blockyOutline (hProgram : strategy.program = some program) :
    (fallbackEntries (Outline.entries BlockyBlock.id none
      (blockyOutline decimalText strategy))).Sublist
        (program.enclosed.map (fun entry => (entry.1, some ("blocky:" ++ entry.1)))) := by
  rw [blockyOutline_eq hProgram, Outline.entries]
  exact (entries_topOutlines decimalText program.itemAround itemAround_some program.statements 0).2

/-- Entries under the portfolio are conditions and values, or statements and
fallbacks. -/
theorem entries_top (parent : Option String) {entry : BlockyBlock × Option String}
    (hEntry : entry ∈ Outline.allEntries BlockyBlock.id parent
      (topOutlines decimalText program.statements 0)) :
    entry.1.Expression ∨ entry.1.Structural := by
  have hContents : (Outline.allEntries BlockyBlock.id parent
      (topOutlines decimalText program.statements 0)).map Prod.fst =
        (Outline.allNodes (topOutlines decimalText program.statements 0)).map Outline.content :=
    Outline.contents_allEntries parent _
  have hContent : entry.1 ∈ (Outline.allNodes
      (topOutlines decimalText program.statements 0)).map Outline.content := by
    rw [← hContents]
    exact List.mem_map_of_mem hEntry
  obtain ⟨n, hn, hContent⟩ := List.mem_map.mp hContent
  rw [← hContent]
  exact (nodes_topOutlines decimalText program.statements 0 n hn).imp_left Traced.expression

theorem entry_of_node {t : Outline BlockyBlock} {n : Outline BlockyBlock} (hn : n ∈ t.nodes) :
    ∃ entry ∈ Outline.entries BlockyBlock.id none t, entry.1 = n.content := by
  have hContents : (Outline.entries BlockyBlock.id none t).map Prod.fst =
      t.nodes.map Outline.content := Outline.contents_entries none t
  have hContent : n.content ∈ (Outline.entries BlockyBlock.id none t).map Prod.fst := by
    rw [hContents]
    exact List.mem_map_of_mem hn
  exact List.mem_map.mp hContent

/-- A structural content is a statement that is shown, or its fallback. -/
theorem structural_cases {block : BlockyBlock} (h : block.Structural) :
    (block.isStatement = true ∧ block.role ≠ .fallback ∧
      block.id = "blocky:" ++ block.address.semanticId) ∨
    (block.isStatement = false ∧ block.role = .fallback ∧
      block.id = "blocky:fallback:" ++ block.address.semanticId) := by
  cases h with
  | statement s path relation =>
      left
      refine ⟨?_, statementBlock_role s, rfl⟩
      simp [BlockyBlock.isStatement, statementBlock, statementBlock_role]
  | fallback semanticId asset path =>
      right
      exact ⟨rfl, rfl, rfl⟩

/-- The statement of a structural entry is one the Program shows. -/
theorem enclosed_of_structural (hProgram : strategy.program = some program)
    {entry : BlockyBlock × Option String}
    (hEntry : entry ∈ Outline.entries BlockyBlock.id none (blockyOutline decimalText strategy))
    (h : entry.1.Structural) : entry.1.address.semanticId ∈ program.enclosed.map Prod.fst := by
  rcases structural_cases h with ⟨hStatement, -, -⟩ | ⟨-, hRole, -⟩
  · have hMem : (entry.1.meaning, entry.2) ∈ statementEntries
        (Outline.entries BlockyBlock.id none (blockyOutline decimalText strategy)) :=
      List.mem_map.mpr ⟨entry, List.mem_filter.mpr ⟨hEntry, hStatement⟩, rfl⟩
    rw [statementEntries_blockyOutline hProgram] at hMem
    obtain ⟨shown, hShown, hSame⟩ := List.mem_map.mp hMem
    have hMeaning := congrArg (fun pair => pair.1.2) hSame
    exact List.mem_map.mpr ⟨shown, hShown, hMeaning⟩
  · have hMem : (entry.1.address.semanticId, entry.2) ∈ fallbackEntries
        (Outline.entries BlockyBlock.id none (blockyOutline decimalText strategy)) :=
      List.mem_map.mpr ⟨entry, List.mem_filter.mpr ⟨hEntry, by simpa using hRole⟩, rfl⟩
    obtain ⟨shown, hShown, hSame⟩ :=
      List.mem_map.mp ((fallbackEntries_blockyOutline hProgram).subset hMem)
    have hId := congrArg Prod.fst hSame
    exact List.mem_map.mpr ⟨shown, hShown, hId⟩

/-- Ids of the shown statements are distinct identifiers. -/
theorem shownIds_nodup (hAccepted : Accepted program) : (program.enclosed.map Prod.fst).Nodup :=
  program.ids_enclosed_sublist.nodup hAccepted.statementIds_nodup

theorem shownId_identifier
    (hIdentifiers : ∀ id ∈ ProgramStatement.allStatementIds program.statements,
      isIdentifier id = true) {id : String} (h : id ∈ program.enclosed.map Prod.fst) :
    isIdentifier id = true :=
  hIdentifiers id (program.ids_enclosed_sublist.subset h)

theorem isStatement_iff {block : BlockyBlock} (h : block.Expression ∨ block.Structural) :
    (block.isStatement && !block.shared) = block.isStatement ∧
      (!block.isStatement && !block.shared) = decide (block.role = .fallback) := by
  rcases h with hExpression | hStructural
  · simp [hExpression.isStatement_eq, hExpression.isShared, hExpression.role_ne]
  · rcases structural_cases hStructural with ⟨hStatement, hRole, -⟩ | ⟨hStatement, hRole, -⟩
    · simp [hStatement, hStructural.unshared, hRole]
    · simp [hStatement, hStructural.unshared, hRole]

theorem append_right_injective (text : String) : Function.Injective (text ++ ·) := by
  intro a b h
  exact (String.append_right_inj _).mp h

/-- Names of the statements under the portfolio. -/
theorem statementNames_top :
    ((Outline.allEntries BlockyBlock.id (some ("blocky:context:" ++ program.semanticId))
      (topOutlines decimalText program.statements 0)).filter
        (fun entry => entry.1.isStatement)).map (fun entry => entry.1.id) =
      (program.enclosed.map Prod.fst).map ("blocky:" ++ ·) := by
  obtain ⟨hStatements, -⟩ := entries_topOutlines decimalText program.itemAround itemAround_some
    program.statements 0
  have hMeanings := congrArg (fun entries => entries.map (fun entry => "blocky:" ++ entry.1.2))
    hStatements
  rw [List.map_map]
  simp only [statementEntries, List.map_map] at hMeanings
  refine Eq.trans ?_ hMeanings
  apply List.map_congr_left
  intro entry hEntry
  obtain ⟨hMem, hStatement⟩ := List.mem_filter.mp hEntry
  rcases entries_top _ hMem with hExpression | hStructural
  · exact absurd (hExpression.isStatement_eq.symm.trans hStatement) Bool.false_ne_true
  · rcases structural_cases hStructural with ⟨-, -, hId⟩ | ⟨hNot, -, -⟩
    · exact hId
    · exact absurd (hNot.symm.trans hStatement) Bool.false_ne_true

/-- Names of the fallbacks under the portfolio do not repeat. -/
theorem fallbackNames_top (hAccepted : Accepted program) :
    (((Outline.allEntries BlockyBlock.id (some ("blocky:context:" ++ program.semanticId))
      (topOutlines decimalText program.statements 0)).filter
        (fun entry => decide (entry.1.role = .fallback))).map (fun entry => entry.1.id)).Nodup := by
  obtain ⟨-, hFallbacks⟩ := entries_topOutlines decimalText program.itemAround itemAround_some
    program.statements 0
  have hOwners : ((fallbackEntries (Outline.allEntries BlockyBlock.id
      (some (program.itemAround none)) (topOutlines decimalText program.statements 0))).map
        Prod.fst).Sublist (program.enclosed.map Prod.fst) := by
    have hMapped := hFallbacks.map Prod.fst
    rw [List.map_map] at hMapped
    exact hMapped
  have hNodup := (hOwners.nodup (shownIds_nodup hAccepted)).map
    (append_right_injective "blocky:fallback:")
  rw [fallbackEntries, List.map_map, List.map_map] at hNodup
  refine (List.map_congr_left ?_).symm ▸ hNodup
  intro entry hEntry
  obtain ⟨hMem, hRole⟩ := List.mem_filter.mp hEntry
  have hFallback : entry.1.role = .fallback := of_decide_eq_true hRole
  rcases entries_top _ hMem with hExpression | hStructural
  · exact absurd hFallback hExpression.role_ne
  · rcases structural_cases hStructural with ⟨-, hNot, -⟩ | ⟨-, -, hId⟩
    · exact absurd hFallback hNot
    · exact hId

theorem structural_ne_context {block : BlockyBlock} {strategyId : String} (h : block.Structural)
    (hId : isIdentifier block.address.semanticId = true) :
    block.id ≠ "blocky:context:" ++ strategyId := by
  rcases structural_cases h with ⟨-, -, hName⟩ | ⟨-, -, hName⟩
  · rw [hName]
    exact statement_ne_context hId
  · rw [hName]
    exact context_ne_fallback.symm

/-- Names that are not shared do not repeat. -/
theorem unsharedNames_nodup (hProgram : strategy.program = some program)
    (hAccepted : Accepted program)
    (hIdentifiers : ∀ id ∈ ProgramStatement.allStatementIds program.statements,
      isIdentifier id = true) :
    (Outline.names BlockyBlock.id (Outline.unshared BlockyBlock.shared
      (Outline.entries BlockyBlock.id none (blockyOutline decimalText strategy)))).Nodup := by
  have hBelow : ∀ entry ∈ Outline.allEntries BlockyBlock.id
      (some ("blocky:context:" ++ program.semanticId))
      (topOutlines decimalText program.statements 0),
      (!entry.1.shared) = true → entry.1.Structural ∧
        isIdentifier entry.1.address.semanticId = true := by
    intro entry hEntry hUnshared
    have hStructural : entry.1.Structural := by
      rcases entries_top _ hEntry with hExpression | hStructural
      · simp [hExpression.isShared] at hUnshared
      · exact hStructural
    have hMem : entry ∈ Outline.entries BlockyBlock.id none
        (blockyOutline decimalText strategy) := by
      rw [blockyOutline_eq hProgram]
      exact List.mem_cons_of_mem _ hEntry
    exact ⟨hStructural, shownId_identifier hIdentifiers
      (enclosed_of_structural hProgram hMem hStructural)⟩
  rw [blockyOutline_eq hProgram, entries_portfolio, Outline.unshared,
    List.filter_cons_of_pos (by rfl), Outline.names, List.map_cons, List.nodup_cons]
  constructor
  · intro hContext
    obtain ⟨entry, hEntry, hName⟩ := List.mem_map.mp hContext
    obtain ⟨hMem, hUnshared⟩ := List.mem_filter.mp hEntry
    obtain ⟨hStructural, hId⟩ := hBelow entry hMem hUnshared
    exact structural_ne_context hStructural hId hName
  · have hApart : ∀ x ∈ (Outline.allEntries BlockyBlock.id
        (some ("blocky:context:" ++ program.semanticId))
        (topOutlines decimalText program.statements 0)).filter (fun entry => !entry.1.shared),
        ∀ y ∈ (Outline.allEntries BlockyBlock.id
          (some ("blocky:context:" ++ program.semanticId))
          (topOutlines decimalText program.statements 0)).filter (fun entry => !entry.1.shared),
        x.1.isStatement = true → y.1.isStatement = false → x.1.id ≠ y.1.id := by
      intro x hx y hy hxStatement hyStatement
      obtain ⟨hx, hxUnshared⟩ := List.mem_filter.mp hx
      obtain ⟨hy, hyUnshared⟩ := List.mem_filter.mp hy
      obtain ⟨hxStructural, hxId⟩ := hBelow x hx hxUnshared
      obtain ⟨hyStructural, -⟩ := hBelow y hy hyUnshared
      rcases structural_cases hxStructural with ⟨-, -, hxName⟩ | ⟨hNot, -, -⟩
      · rcases structural_cases hyStructural with ⟨hNot, -, -⟩ | ⟨-, -, hyName⟩
        · exact absurd (hyStatement.symm.trans hNot) Bool.false_ne_true
        · rw [hxName, hyName]
          exact statement_ne_fallback hxId
      · exact absurd (hNot.symm.trans hxStatement) Bool.false_ne_true
    refine Outline.nodup_map_of_filter ?_ ?_ hApart
    · rw [List.filter_filter, List.filter_congr (fun entry hEntry =>
        (isStatement_iff (entries_top _ hEntry)).1), statementNames_top]
      exact (shownIds_nodup hAccepted).map (append_right_injective "blocky:")
    · rw [List.filter_filter, List.filter_congr (fun entry hEntry =>
        (isStatement_iff (entries_top _ hEntry)).2)]
      exact fallbackNames_top hAccepted

variable (hProgram : strategy.program = some program) (hAccepted : Accepted program)
  (hIdentifiers : ∀ id ∈ ProgramStatement.allStatementIds program.statements,
    isIdentifier id = true)

include hProgram hIdentifiers in
/-- No statement has the name of a condition or a value. -/
theorem names_apart : ∀ n ∈ (blockyOutline decimalText strategy).nodes,
    ∀ m ∈ (blockyOutline decimalText strategy).nodes, n.content.shared = true →
      m.content.shared = false → n.content.id ≠ m.content.id := by
  intro n hn m hm hShared hUnshared hName
  have hExpression := (traced_of_shared hProgram hn hShared).expression
  have hExpressionName : (∃ id, n.content.id = "blocky:value:" ++ id) ∨
      ∃ id, n.content.id = "blocky:condition:" ++ id := by
    cases hContent : n.content with
    | mk id role label detail address =>
        rw [hContent] at hExpression
        cases hExpression with
        | value semanticId _ path => exact .inl ⟨_, rfl⟩
        | condition condition path => exact .inr ⟨_, rfl⟩
  rcases nodes_blockyOutline hProgram m hm with hPortfolio | hTraced | hStructural
  · rw [hPortfolio] at hName
    rcases hExpressionName with ⟨id, hId⟩ | ⟨id, hId⟩
    · exact context_ne_value (hName.symm.trans hId)
    · exact context_ne_condition (hName.symm.trans hId)
  · exact absurd (hUnshared.symm.trans hTraced.expression.isShared) Bool.false_ne_true
  · obtain ⟨entry, hEntry, hSame⟩ := entry_of_node hm
    have hIdentifier := shownId_identifier hIdentifiers
      (enclosed_of_structural hProgram hEntry (hSame ▸ hStructural))
    rw [hSame] at hIdentifier
    rcases structural_cases hStructural with ⟨-, -, hOwn⟩ | ⟨-, -, hOwn⟩
    · rcases hExpressionName with ⟨id, hId⟩ | ⟨id, hId⟩
      · exact statement_ne_value hIdentifier (hOwn.symm.trans (hName.symm.trans hId))
      · exact statement_ne_condition hIdentifier (hOwn.symm.trans (hName.symm.trans hId))
    · rcases hExpressionName with ⟨id, hId⟩ | ⟨id, hId⟩
      · exact fallback_ne_value (hOwn.symm.trans (hName.symm.trans hId))
      · exact fallback_ne_condition (hOwn.symm.trans (hName.symm.trans hId))

include hProgram hAccepted in
/-- Conditions and values of one name have one content, so the same components. -/
theorem components_agree : ∀ n ∈ (blockyOutline decimalText strategy).nodes,
    ∀ m ∈ (blockyOutline decimalText strategy).nodes, n.content.shared = true →
      m.content.shared = true → n.content.id = m.content.id →
      n.children.map (fun c => c.content.id) = m.children.map (fun c => c.content.id) := by
  intro n hn m hm hnShared hmShared hName
  have hnTraced := traced_of_shared hProgram hn hnShared
  have hmTraced := traced_of_shared hProgram hm hmShared
  obtain ⟨fields, hFields, hComponents⟩ := hnTraced.content
  obtain ⟨fields', hFields', hComponents'⟩ := hmTraced.content
  have hContent := addressed_consistent hAccepted.identities hFields hFields'
    (hnTraced.expression.address_eq hmTraced.expression hName).2
  rw [hComponents, hComponents']
  exact congrArg componentNames hContent

include hProgram hAccepted hIdentifiers in
theorem coherent_blockyOutline :
    Outline.Coherent BlockyBlock.id (blockyOutline decimalText strategy) :=
  Outline.coherent_of_apart (components_agree hProgram hAccepted)
    (unsharedNames_nodup hProgram hAccepted hIdentifiers) (names_apart hProgram hIdentifiers)

include hProgram hAccepted hIdentifiers in
theorem layout_nodup : (Outline.names BlockyBlock.id (Outline.place BlockyBlock.id
    BlockyBlock.shared none (blockyOutline decimalText strategy) [])).Nodup :=
  Outline.nodup_names_place none (sharesBelow_blockyOutline hProgram)
    (unsharedNames_nodup hProgram hAccepted hIdentifiers) (names_apart hProgram hIdentifiers)

end Layout

section Blocky

variable {decimalText : ℚ → String} {strategy : CanonicalStrategy} {program : SemanticProgram}
  {ε : Type} {claim : Except ε ExecutionClaim}

/-- Entries of the Blocky view in their order. -/
def blockyLayout (decimalText : ℚ → String) (strategy : CanonicalStrategy) :
    List (BlockyBlock × Option String) :=
  Outline.place BlockyBlock.id BlockyBlock.shared none (blockyOutline decimalText strategy) []

theorem ids_blockyItems : itemIds (blockyItems decimalText strategy) =
    Outline.names BlockyBlock.id (blockyLayout decimalText strategy) := by
  have hId : ∀ order entry, (blockyItem order entry).id = entry.1.id := fun _ _ => rfl
  exact Sequence.map_mapIdx hId _

theorem mem_blockyItems {item : ProjectionItem} :
    item ∈ blockyItems decimalText strategy ↔
      ∃ order, ∃ h : order < (blockyLayout decimalText strategy).length,
        blockyItem order (blockyLayout decimalText strategy)[order] = item := by
  exact List.mem_mapIdx

theorem entry_of_item {item : ProjectionItem} (h : item ∈ blockyItems decimalText strategy) :
    ∃ entry ∈ blockyLayout decimalText strategy, item.id = entry.1.id ∧ item.role = entry.1.role ∧
      item.address = entry.1.address ∧ item.parentId = entry.2 := by
  obtain ⟨order, hOrder, rfl⟩ := mem_blockyItems.mp h
  exact ⟨_, List.getElem_mem hOrder, rfl, rfl, rfl, rfl⟩

theorem item_of_entry {entry : BlockyBlock × Option String}
    (h : entry ∈ blockyLayout decimalText strategy) :
    ∃ item ∈ blockyItems decimalText strategy, item.id = entry.1.id ∧
      item.meaning = entry.1.meaning ∧ item.parentId = entry.2 := by
  obtain ⟨order, hOrder, rfl⟩ := List.mem_iff_getElem.mp h
  exact ⟨_, mem_blockyItems.mpr ⟨order, hOrder, rfl⟩, rfl, rfl, rfl⟩

theorem parentsKnown_blockyItems : ParentsKnown (blockyItems decimalText strategy) := by
  intro item hItem parent hParent
  obtain ⟨entry, hEntry, -, -, -, hSame⟩ := entry_of_item hItem
  rw [hSame] at hParent
  rw [ids_blockyItems]
  exact Outline.parents_known _ entry hEntry parent hParent

variable (hProgram : strategy.program = some program) (hAccepted : Accepted program)
  (hIdentifiers : ∀ id ∈ ProgramStatement.allStatementIds program.statements,
    isIdentifier id = true)

include hProgram hAccepted hIdentifiers in
theorem ids_blockyItems_nodup : (itemIds (blockyItems decimalText strategy)).Nodup := by
  rw [ids_blockyItems]
  exact layout_nodup hProgram hAccepted hIdentifiers

include hProgram hAccepted hIdentifiers in
/-- The Blocky view of an accepted Program passes its identity check. -/
theorem projectBlocky_ok {executionClaim : ExecutionClaim} (hClaim : claim = .ok executionClaim) :
    ∃ blocky, projectBlocky decimalText strategy claim = .ok blocky ∧
      blocky.items = blockyItems decimalText strategy := by
  have hLinks : LinksKnown (blockyItems decimalText strategy) [] := by
    intro link hLink
    cases hLink
  obtain ⟨blocky, hBlocky, -, hItems⟩ := validateIdentity_ok
    (ids_blockyItems_nodup hProgram hAccepted hIdentifiers) parentsKnown_blockyItems hLinks
  refine ⟨blocky, ?_, hItems⟩
  rw [hClaim]
  show identified _ = _
  rw [hBlocky]
  rfl

theorem claim_of_projectBlocky {blocky : ProjectionManifest}
    (h : projectBlocky decimalText strategy claim = .ok blocky) :
    (∃ executionClaim, claim = .ok executionClaim) ∧
      blocky.items = blockyItems decimalText strategy := by
  cases claim with
  | error e => cases h
  | ok executionClaim =>
      refine ⟨⟨executionClaim, rfl⟩, ?_⟩
      have hIdentified : identified (validateIdentity _ _ _ _ _ _ _) = .ok blocky := h
      cases hManifest : validateIdentity .blocky strategy.projectedId
          (blockyItems decimalText strategy) []
          ["portfolio ownership decoration", "provider/runtime status"] (semanticValid strategy)
          executionClaim with
      | error e =>
          rw [hManifest] at hIdentified
          cases hIdentified
      | ok manifest =>
          rw [hManifest] at hIdentified
          obtain rfl := Except.ok.inj hIdentified
          exact items_of_validateIdentity hManifest

include hProgram in
/-- Contents of the layout are the portfolio, conditions and values, or
statements and fallbacks. -/
theorem contents_layout {entry : BlockyBlock × Option String}
    (h : entry ∈ blockyLayout decimalText strategy) :
    ∃ n ∈ (blockyOutline decimalText strategy).nodes, entry.1 = n.content ∧
      (n.content = portfolioBlock program.semanticId ∨ n.content.Expression ∨
        n.content.Structural) := by
  rcases Outline.mem_place none _ [] entry h with hNone | ⟨n, hn, hContent, -⟩
  · exact absurd hNone List.not_mem_nil
  · refine ⟨n, hn, hContent, ?_⟩
    apply (nodes_blockyOutline hProgram n hn).imp_right
    exact Or.imp_left Traced.expression

include hProgram in
/-- A selection of unshared contents is laid out as the outline lists them. -/
theorem filter_layout {q : BlockyBlock × Option String → Bool}
    (hUnshared : ∀ entry, q entry = true → entry.1.Expression → False) :
    (blockyLayout decimalText strategy).filter q =
      (Outline.entries BlockyBlock.id none (blockyOutline decimalText strategy)).filter q := by
  have hSelect : ∀ entry : BlockyBlock × Option String,
      (entry.1 = portfolioBlock program.semanticId ∨ entry.1.Expression ∨ entry.1.Structural) →
      (q entry && !entry.1.shared) = q entry := by
    intro entry hContent
    rcases hContent with hPortfolio | hExpression | hStructural
    · rw [hPortfolio]
      exact Bool.and_true _
    · rw [Bool.eq_false_iff.mpr (fun hq => hUnshared entry hq hExpression), Bool.false_and]
    · rw [hStructural.unshared]
      exact Bool.and_true _
  have hLayout : Outline.unshared BlockyBlock.shared (blockyLayout decimalText strategy) =
      Outline.unshared BlockyBlock.shared
        (Outline.entries BlockyBlock.id none (blockyOutline decimalText strategy)) := by
    apply (Outline.unshared_place none _ [] (sharesBelow_blockyOutline hProgram)).trans
    rfl
  have hFiltered := congrArg (fun entries => entries.filter q) hLayout
  simp only [Outline.unshared, List.filter_filter] at hFiltered
  have hLaidOut : ∀ entry ∈ blockyLayout decimalText strategy,
      (q entry && !entry.1.shared) = q entry := by
    intro entry hEntry
    obtain ⟨n, -, hSame, hContent⟩ := contents_layout hProgram hEntry
    rw [← hSame] at hContent
    exact hSelect entry hContent
  have hListed : ∀ entry ∈ Outline.entries BlockyBlock.id none (blockyOutline decimalText strategy),
      (q entry && !entry.1.shared) = q entry := by
    intro entry hEntry
    rw [blockyOutline_eq hProgram, entries_portfolio] at hEntry
    rcases List.mem_cons.mp hEntry with rfl | hEntry
    · exact hSelect _ (.inl rfl)
    · exact hSelect entry (.inr (entries_top _ hEntry))
  rw [List.filter_congr hLaidOut, List.filter_congr hListed] at hFiltered
  exact hFiltered

include hProgram in
theorem statementEntries_layout : statementEntries (blockyLayout decimalText strategy) =
    program.enclosed.map
      (fun entry => ((.statement, entry.1), some (program.itemAround entry.2))) := by
  rw [statementEntries, filter_layout hProgram]
  · exact statementEntries_blockyOutline hProgram
  · intro entry hStatement hExpression
    exact Bool.false_ne_true (hExpression.isStatement_eq.symm.trans hStatement)

include hProgram in
theorem fallbackEntries_layout : (fallbackEntries (blockyLayout decimalText strategy)).Sublist
    (program.enclosed.map (fun entry => (entry.1, some ("blocky:" ++ entry.1)))) := by
  rw [fallbackEntries, filter_layout hProgram]
  · exact fallbackEntries_blockyOutline hProgram
  · intro entry hFallback hExpression
    exact hExpression.role_ne (of_decide_eq_true hFallback)

include hProgram hAccepted hIdentifiers in
/-- Every statement has exactly one item under the item of the statement around it. -/
theorem statement_items : ∀ entry ∈ program.enclosed, ∃! item,
    item ∈ blockyItems decimalText strategy ∧ item.meaning = (.statement, entry.1) ∧
      item.parentId = some (program.itemAround entry.2) := by
  intro shown hShown
  have hId : isIdentifier shown.1 = true :=
    shownId_identifier hIdentifiers (List.mem_map_of_mem hShown)
  have hEntry : ((.statement, shown.1), some (program.itemAround shown.2)) ∈
      statementEntries (blockyLayout decimalText strategy) := by
    rw [statementEntries_layout hProgram]
    exact List.mem_map.mpr ⟨shown, hShown, rfl⟩
  obtain ⟨entry, hEntry, hSame⟩ := List.mem_map.mp hEntry
  obtain ⟨hMem, -⟩ := List.mem_filter.mp hEntry
  obtain ⟨hMeaning, hParent⟩ := Prod.mk.inj hSame
  obtain ⟨item, hItem, -, hItemMeaning, hItemParent⟩ := item_of_entry hMem
  -- an item of the statement under that parent is not its fallback, so its name is fixed
  have hName : ∀ other, other ∈ blockyItems decimalText strategy →
      other.meaning = (.statement, shown.1) →
      other.parentId = some (program.itemAround shown.2) → other.id = "blocky:" ++ shown.1 := by
    intro other hOther hOtherMeaning hOtherParent
    obtain ⟨entry, hEntry, hOwnId, hOwnRole, hOwnAddress, hOwnParent⟩ := entry_of_item hOther
    obtain ⟨n, -, hContent, hCases⟩ := contents_layout hProgram hEntry
    rw [← hContent] at hCases
    obtain ⟨hKind, hSemanticId⟩ := Prod.mk.inj hOtherMeaning
    rw [hOwnAddress] at hKind hSemanticId
    rcases hCases with hPortfolio | hExpression | hStructural
    · rw [hPortfolio] at hKind
      cases hKind
    · exact absurd hKind hExpression.kind_ne.1
    · rcases structural_cases hStructural with ⟨-, -, hStatement⟩ | ⟨-, hRole, -⟩
      · rw [hOwnId, hStatement, hSemanticId]
      · have hFallback : (shown.1, entry.2) ∈ fallbackEntries (blockyLayout decimalText strategy) :=
          List.mem_map.mpr ⟨entry, List.mem_filter.mpr ⟨hEntry, by simpa using hRole⟩,
            by rw [hSemanticId]⟩
        obtain ⟨owner, -, hOwner⟩ :=
          List.mem_map.mp ((fallbackEntries_layout hProgram).subset hFallback)
        obtain ⟨hOwnerId, hOwnerParent⟩ := Prod.mk.inj hOwner
        rw [hOwnParent, ← hOwnerParent, hOwnerId] at hOtherParent
        have hAround := (Option.some.inj hOtherParent).symm
        have hNodup : (ProgramStatement.allStatementIds
            (program.statements.filter (fun s => !s.isBlankBootstrap))).Nodup := by
          have hShownIds := shownIds_nodup hAccepted
          rwa [SemanticProgram.enclosed, ids_allEnclosed] at hShownIds
        rcases enclosed_allApart none _ hNodup shown hShown with hNone | ⟨id, hSome, hOther⟩
        · rw [hNone] at hAround
          exact absurd hAround.symm (statement_ne_context hId)
        · rw [hSome] at hAround
          exact absurd ((String.append_right_inj _).mp hAround) hOther
  refine ⟨item, ⟨hItem, hItemMeaning.trans hMeaning, hItemParent.trans hParent⟩, ?_⟩
  rintro other ⟨hOther, hOtherMeaning, hOtherParent⟩
  apply List.inj_on_of_nodup_map (ids_blockyItems_nodup hProgram hAccepted hIdentifiers) hOther hItem
  rw [hName other hOther hOtherMeaning hOtherParent,
    hName item hItem (hItemMeaning.trans hMeaning) (hItemParent.trans hParent)]

include hProgram hAccepted hIdentifiers in
/-- A condition or a value is the address of an item exactly when it is drawn. -/
theorem drawn_iff {meaning : Meaning} (hKind : meaning.1 ≠ .statement ∧ meaning.1 ≠ .strategy) :
    (∃ item ∈ blockyItems decimalText strategy, item.meaning = meaning) ↔
      meaning ∈ program.drawn := by
  have hDrawnNodes : ((blockyOutline decimalText strategy).nodes.filter
      (fun n => n.content.shared)).map (fun n => n.content.meaning) = program.drawn :=
    drawn_blockyOutline hProgram
  rw [← hDrawnNodes]
  constructor
  · rintro ⟨item, hItem, rfl⟩
    obtain ⟨entry, hEntry, -, -, hAddress, -⟩ := entry_of_item hItem
    obtain ⟨n, hn, hContent, hCases⟩ := contents_layout hProgram hEntry
    have hMeaning : item.meaning = n.content.meaning := by
      rw [ProjectionItem.meaning, BlockyBlock.meaning, hAddress, hContent]
    rw [hMeaning] at hKind ⊢
    rcases hCases with hPortfolio | hExpression | hStructural
    · rw [hPortfolio] at hKind
      exact absurd rfl hKind.2
    · exact List.mem_map.mpr ⟨n, List.mem_filter.mpr ⟨hn, hExpression.isShared⟩, rfl⟩
    · cases hBlock : n.content with
      | mk id role label detail address =>
          rw [hBlock] at hStructural hKind
          cases hStructural with
          | statement s path relation => exact absurd rfl hKind.1
          | fallback semanticId asset path => exact absurd rfl hKind.1
  · intro hDrawn
    obtain ⟨n, hn, rfl⟩ := List.mem_map.mp hDrawn
    obtain ⟨hn, hShared⟩ := List.mem_filter.mp hn
    have hName : n.content.id ∈ Outline.names BlockyBlock.id (blockyLayout decimalText strategy) :=
      (coherent_blockyOutline hProgram hAccepted hIdentifiers).name_mem none n hn
    obtain ⟨entry, hEntry, hSame⟩ := List.mem_map.mp hName
    obtain ⟨m, hm, hContent, -⟩ := contents_layout hProgram hEntry
    rw [hContent] at hSame
    have hmShared : m.content.shared = true := by
      by_contra hNot
      exact names_apart hProgram hIdentifiers n hn m hm hShared (Bool.eq_false_iff.mpr hNot)
        hSame.symm
    obtain ⟨hSameKind, hSameId⟩ := (traced_of_shared hProgram hm hmShared).expression.address_eq
      (traced_of_shared hProgram hn hShared).expression hSame
    obtain ⟨item, hItem, -, hMeaning, -⟩ := item_of_entry hEntry
    refine ⟨item, hItem, ?_⟩
    rw [hMeaning, hContent, BlockyBlock.meaning, hSameKind, hSameId]
    rfl

end Blocky

section Rules

theorem replace_start (rest : String) : replaceText "blocky:" "rules:" ("blocky:" ++ rest) =
    "rules:" ++ String.ofList (substitute "blocky:".toList "rules:".toList 0 rest.toList) := by
  have hStart : "blocky:".toList = 'b' :: "locky:".toList := rfl
  have hRead := substitute_append (c := 'b') "locky:".toList "rules:".toList rest.toList
  rw [replaceText, String.toList_append, hStart, hRead, String.ofList_append, String.ofList_toList]

theorem replace_statement {id : String} (h : ':' ∉ id.toList) :
    replaceText "blocky:" "rules:" ("blocky:" ++ id) = "rules:" ++ id := by
  rw [replace_start, substitute_of_notMem (a := ':') (by decide) h, String.ofList_toList]

theorem replace_fallback {id : String} (h : ':' ∉ id.toList) :
    replaceText "blocky:" "rules:" ("blocky:fallback:" ++ id) = "rules:fallback:" ++ id := by
  have hRest : substitute "blocky:".toList "rules:".toList 0 ("fallback:" ++ id).toList =
      ("fallback:" ++ id).toList := by
    have hTail : substitute ['b', 'l', 'o', 'c', 'k', 'y', ':'] ['r', 'u', 'l', 'e', 's', ':'] 0
        id.toList = id.toList := substitute_of_notMem (a := ':') (by decide) h
    rw [String.toList_append]
    show substitute ['b', 'l', 'o', 'c', 'k', 'y', ':'] ['r', 'u', 'l', 'e', 's', ':'] 0
      ('f' :: 'a' :: 'l' :: 'l' :: 'b' :: 'a' :: 'c' :: 'k' :: ':' :: id.toList) = _
    simp [substitute, List.isPrefixOf, hTail]
  rw [show "blocky:fallback:" = "blocky:" ++ "fallback:" from rfl, String.append_assoc,
    replace_start, hRest, String.ofList_toList, ← String.append_assoc]
  rfl

variable {decimalText : ℚ → String} {strategy : CanonicalStrategy} {program : SemanticProgram}
  {ε : Type} {claim : Except ε ExecutionClaim}
  (hProgram : strategy.program = some program) (hAccepted : Accepted program)
  (hIdentifiers : ∀ id ∈ ProgramStatement.allStatementIds program.statements,
    isIdentifier id = true)

theorem Expression.unreadable {block : BlockyBlock} (h : block.Expression) :
    block.role.readable = false := by
  cases h <;> rfl

theorem Structural.readable {block : BlockyBlock} (h : block.Structural) :
    block.role.readable = true := by
  cases h with
  | statement s path relation => cases s <;> rfl
  | fallback semanticId asset path => rfl

/-- Besides fallbacks the Rules view reads statements. -/
theorem readable_statement {block : BlockyBlock} (h : block = portfolioBlock program.semanticId ∨
    block.Expression ∨ block.Structural) :
    (decide (block.role ≠ .fallback) && block.role.readable) = block.isStatement := by
  rcases h with rfl | hExpression | hStructural
  · rfl
  · rw [Expression.unreadable hExpression, hExpression.isStatement_eq, Bool.and_false]
  · rcases structural_cases hStructural with ⟨hStatement, hRole, -⟩ | ⟨hStatement, hRole, -⟩
    · simp [hStatement, hRole, Structural.readable hStructural]
    · simp [hStatement, hRole]

include hProgram hIdentifiers in
/-- Ids of readable items change their view and nothing else. -/
theorem ruleId_of_readable {item : ProjectionItem} (hItem : item ∈ blockyItems decimalText strategy)
    (hReadable : item.role.readable = true) : ∃ rest, item.id = "blocky:" ++ rest ∧
      replaceText "blocky:" "rules:" item.id = "rules:" ++ rest := by
  obtain ⟨entry, hEntry, hId, hRole, -, -⟩ := entry_of_item hItem
  obtain ⟨n, hn, hContent, hCases⟩ := contents_layout hProgram hEntry
  rw [hId]
  rw [hRole] at hReadable
  rw [← hContent] at hCases
  rcases hCases with hPortfolio | hExpression | hStructural
  · rw [hPortfolio] at hReadable
    cases hReadable
  · exact absurd ((Expression.unreadable hExpression).symm.trans hReadable) Bool.false_ne_true
  · obtain ⟨listed, hListed, hSame⟩ := entry_of_node hn
    have hIdentifier := shownId_identifier hIdentifiers
      (enclosed_of_structural hProgram hListed (hSame.trans hContent.symm ▸ hStructural))
    rw [hSame, ← hContent] at hIdentifier
    rcases structural_cases hStructural with ⟨-, -, hName⟩ | ⟨-, -, hName⟩
    · exact ⟨_, hName, hName ▸ replace_statement (colon_notMem hIdentifier)⟩
    · refine ⟨"fallback:" ++ entry.1.address.semanticId, ?_, ?_⟩
      · rw [hName, ← String.append_assoc]
        rfl
      · rw [hName, replace_fallback (colon_notMem hIdentifier), ← String.append_assoc]
        rfl

include hProgram hAccepted hIdentifiers in
/-- The Rules view of an accepted Program passes its identity check. -/
theorem projectRules_ok {executionClaim : ExecutionClaim} (hClaim : claim = .ok executionClaim) :
    ∃ blocky rules, projectBlocky decimalText strategy claim = .ok blocky ∧
      projectRules decimalText strategy claim = .ok rules ∧
      blocky.items = blockyItems decimalText strategy ∧ rules.items = ruleItems blocky := by
  obtain ⟨blocky, hBlocky, hItems⟩ := projectBlocky_ok hProgram hAccepted hIdentifiers hClaim
  have hIds : itemIds (ruleItems blocky) = ((blockyItems decimalText strategy).filter
      (fun item => item.role.readable)).map
        (fun item => replaceText "blocky:" "rules:" item.id) := by
    have hRename : ∀ index item, (ruleItem index item).id =
        replaceText "blocky:" "rules:" item.id := fun _ _ => rfl
    rw [itemIds, ruleItems, hItems, Sequence.map_mapIdx hRename]
  have hNodup : (itemIds (ruleItems blocky)).Nodup := by
    have hAll : (itemIds (blockyItems decimalText strategy)).Nodup :=
      ids_blockyItems_nodup hProgram hAccepted hIdentifiers
    have hReadable : (((blockyItems decimalText strategy).filter
        (fun item => item.role.readable)).map ProjectionItem.id).Nodup :=
      hAll.sublist (List.filter_sublist.map ProjectionItem.id)
    rw [hIds, List.nodup_map_iff_inj_on (List.Nodup.of_map _ hReadable)]
    intro x hx y hy hSame
    apply List.inj_on_of_nodup_map hReadable hx hy
    obtain ⟨hxMem, hxReadable⟩ := List.mem_filter.mp hx
    obtain ⟨hyMem, hyReadable⟩ := List.mem_filter.mp hy
    obtain ⟨xRest, hxId, hxRule⟩ := ruleId_of_readable hProgram hIdentifiers hxMem hxReadable
    obtain ⟨yRest, hyId, hyRule⟩ := ruleId_of_readable hProgram hIdentifiers hyMem hyReadable
    rw [hxRule, hyRule] at hSame
    rw [hxId, hyId, (String.append_right_inj _).mp hSame]
  have hParents : ParentsKnown (ruleItems blocky) := by
    intro item hItem parent hParent
    obtain ⟨index, hIndex, rfl⟩ := List.mem_mapIdx.mp hItem
    cases hParent
  have hLinks : LinksKnown (ruleItems blocky) [] := by
    intro link hLink
    cases hLink
  obtain ⟨rules, hRules, -, hRuleItems⟩ := validateIdentity_ok hNodup hParents hLinks
  refine ⟨blocky, rules, hBlocky, ?_, hItems, hRuleItems⟩
  unfold projectRules
  rw [hBlocky]
  show identified _ = _
  rw [hRules]
  rfl

include hProgram in
/-- The Rules view lists the statements depth first. -/
theorem rules_depthFirst {blocky : ProjectionManifest}
    (hItems : blocky.items = blockyItems decimalText strategy) :
    ((ruleItems blocky).filter (fun item => item.role ≠ .fallback)).map
      (fun item => item.meaning) = program.enclosed.map (fun entry => (.statement, entry.1)) := by
  have hKeepRole : ∀ index item, decide ((ruleItem index item).role ≠ .fallback) =
      decide (item.role ≠ .fallback) := fun _ _ => rfl
  have hKeepMeaning : ∀ index item, (ruleItem index item).meaning = item.meaning := fun _ _ => rfl
  have hItemSelect : ∀ order entry, (decide ((blockyItem order entry).role ≠ .fallback) &&
      (blockyItem order entry).role.readable) =
        (decide (entry.1.role ≠ .fallback) && entry.1.role.readable) := fun _ _ => rfl
  have hItemMeaning : ∀ order entry, (blockyItem order entry).meaning = entry.1.meaning :=
    fun _ _ => rfl
  have hStatements : ∀ entry ∈ blockyLayout decimalText strategy,
      (decide (entry.1.role ≠ .fallback) && entry.1.role.readable) = entry.1.isStatement := by
    intro entry hEntry
    obtain ⟨n, -, hContent, hCases⟩ := contents_layout hProgram hEntry
    rw [← hContent] at hCases
    exact readable_statement hCases
  rw [ruleItems, Sequence.map_filter_mapIdx hKeepRole hKeepMeaning, List.filter_filter, hItems,
    blockyItems, Sequence.map_filter_mapIdx hItemSelect hItemMeaning]
  show ((blockyLayout decimalText strategy).filter _).map _ = _
  rw [List.filter_congr hStatements]
  have hListed : statementEntries (blockyLayout decimalText strategy) = _ :=
    statementEntries_layout hProgram
  have hEntries := congrArg (fun entries => entries.map Prod.fst) hListed
  simp only [statementEntries, List.map_map] at hEntries
  exact hEntries

end Rules

section Completeness

variable {decimalText : ℚ → String} {strategy : CanonicalStrategy} {program : SemanticProgram}
  {ε : Type} {claim : Except ε ExecutionClaim}

theorem kind_of_traced {ts : List (Outline BlockyBlock)}
    {objects : List (String × List (String × Json))}
    (h : ∀ n ∈ ts, Traced objects n) {meaning : Meaning}
    (hMeaning : meaning ∈ ts.map (fun n => n.content.meaning)) :
    meaning.1 ≠ .statement ∧ meaning.1 ≠ .strategy := by
  obtain ⟨n, hn, rfl⟩ := List.mem_map.mp hMeaning
  exact (h n hn).expression.kind_ne

/-- What is evaluated is a condition or a value. -/
theorem kind_of_undrawn {meaning : Meaning} (h : meaning ∈ program.undrawn) :
    meaning.1 ≠ .statement ∧ meaning.1 ≠ .strategy := by
  obtain ⟨s, -, hMeaning⟩ := List.mem_flatMap.mp h
  cases s with
  | rememberValue s =>
      rw [ProgramStatement.undrawn,
        ← meanings_valueOutline (fun _ => "") s.value "" none] at hMeaning
      exact kind_of_traced (traced_valueOutline (fun _ => "") s.value "" none) hMeaning
  | guardedAllocation s =>
      obtain ⟨rule, -, hMeaning⟩ := List.mem_flatMap.mp hMeaning
      rw [← meanings_conditionOutline (fun _ => "") rule.when "" none] at hMeaning
      exact kind_of_traced (traced_conditionOutline (fun _ => "") rule.when "" none) hMeaning
  | _ => cases hMeaning

theorem kind_of_drawn (hProgram : strategy.program = some program) {meaning : Meaning}
    (h : meaning ∈ program.drawn) : meaning.1 ≠ .statement ∧ meaning.1 ≠ .strategy := by
  have hNodes : ((blockyOutline (fun _ => "") strategy).nodes.filter
      (fun n => n.content.shared)).map (fun n => n.content.meaning) = program.drawn :=
    drawn_blockyOutline hProgram
  rw [← hNodes] at h
  obtain ⟨n, hn, rfl⟩ := List.mem_map.mp h
  obtain ⟨hn, hShared⟩ := List.mem_filter.mp hn
  exact (traced_of_shared hProgram hn hShared).expression.kind_ne

/-- A Blocky view that omits nothing draws what is only evaluated elsewhere. -/
theorem drawn_of_omitsNoMeaning (hProgram : strategy.program = some program)
    (hAccepted : Accepted program)
    (hIdentifiers : ∀ id ∈ ProgramStatement.allStatementIds program.statements,
      isIdentifier id = true) {blocky rules : ProjectionManifest}
    (hBlocky : projectBlocky decimalText strategy claim = .ok blocky)
    (h : OmitsNoMeaning program blocky rules) :
    ∀ meaning ∈ program.undrawn, meaning ∈ program.drawn := by
  intro meaning hUndrawn
  obtain ⟨-, hItems⟩ := claim_of_projectBlocky hBlocky
  obtain ⟨item, hItem, hMeaning⟩ := h.meanings meaning
    (SemanticProgram.mem_evaluated_iff.mpr (.inr hUndrawn))
  rw [hItems] at hItem
  exact (drawn_iff hProgram hAccepted hIdentifiers (kind_of_undrawn hUndrawn)).mp
    ⟨item, hItem, hMeaning⟩

/-- The Blocky view of a valid strategy is built and omits no meaning exactly
when the capability assessment returns and every condition of a policy rule and
every remembered value, with all it is computed from, also stands at a place the
view draws. -/
theorem omitsNoMeaning_iff (decimalText : ℚ → String) (claim : Except ε ExecutionClaim)
    (hProgram : strategy.program = some program) (hValid : validateStrategyV2 strategy = [])
    (hIdentifiers : ∀ id ∈ ProgramStatement.allStatementIds program.statements,
      isIdentifier id = true) :
    (∃ blocky rules, projectBlocky decimalText strategy claim = .ok blocky ∧
      projectRules decimalText strategy claim = .ok rules ∧ OmitsNoMeaning program blocky rules) ↔
    (∃ executionClaim, claim = .ok executionClaim) ∧
      ∀ meaning ∈ program.undrawn, meaning ∈ program.drawn := by
  have hAccepted : Accepted program := by
    rw [validateStrategyV2, hProgram] at hValid
    exact (List.append_eq_nil_iff.mp hValid).2
  constructor
  · rintro ⟨blocky, rules, hBlocky, -, hOmits⟩
    exact ⟨(claim_of_projectBlocky hBlocky).1,
      drawn_of_omitsNoMeaning hProgram hAccepted hIdentifiers hBlocky hOmits⟩
  · rintro ⟨⟨executionClaim, hClaim⟩, hDrawn⟩
    obtain ⟨blocky, rules, hBlocky, hRules, hItems, hRuleItems⟩ :=
      @projectRules_ok decimalText _ _ _ _ hProgram hAccepted hIdentifiers _ hClaim
    refine ⟨blocky, rules, hBlocky, hRules, ?_, ?_, ?_⟩
    · rw [hItems]
      exact statement_items hProgram hAccepted hIdentifiers
    · intro meaning hEvaluated
      rw [hItems]
      have hMeaning : meaning ∈ program.drawn := by
        rcases SemanticProgram.mem_evaluated_iff.mp hEvaluated with hMem | hMem
        · exact hMem
        · exact hDrawn meaning hMem
      apply (drawn_iff hProgram hAccepted hIdentifiers ?_).mpr hMeaning
      exact kind_of_drawn hProgram hMeaning
    · rw [hRuleItems]
      exact rules_depthFirst hProgram hItems

/-- Everything into cash at each close. -/
def cashStrategy : CanonicalStrategy :=
  .ofProgram (.ofGroup "group" ["A"] (List.nodup_singleton "A")) (.daily intoCash)

theorem cashStrategy_valid : validateStrategyV2 cashStrategy = [] := by
  decide +kernel

theorem intoCash_identifiers :
    ∀ id ∈ ProgramStatement.allStatementIds (SemanticProgram.daily intoCash).statements,
      isIdentifier id = true := by
  decide +kernel

theorem cashStrategy_omits_nothing :
    (∃ blocky rules, projectBlocky (fun _ => "") cashStrategy
        (.ok .supported : Except String ExecutionClaim) = .ok blocky ∧
      projectRules (fun _ => "") cashStrategy
        (.ok .supported : Except String ExecutionClaim) = .ok rules ∧
      OmitsNoMeaning (.daily intoCash) blocky rules) ↔
    (∃ executionClaim, (.ok .supported : Except String ExecutionClaim) = .ok executionClaim) ∧
      ∀ meaning ∈ (SemanticProgram.daily intoCash).undrawn,
        meaning ∈ (SemanticProgram.daily intoCash).drawn :=
  omitsNoMeaning_iff (fun _ => "") (.ok .supported) rfl cashStrategy_valid intoCash_identifiers

/-- A policy that tests a state before each of its two allocations into cash. -/
def testedProgram : SemanticProgram :=
  .temporal (Dict.ofList [("phase", "idle")]) []
    (.inState "phase" "idle" (.sole "held" .cash) (.sole "otherwise" .cash))

def testedStrategy : CanonicalStrategy :=
  .ofProgram (.ofGroup "group" ["A"] (List.nodup_singleton "A")) testedProgram

/-- The condition of the policy rule is no item of the view. -/
theorem tested_condition_omitted : validateStrategyV2 testedStrategy = [] ∧
    (∀ id ∈ ProgramStatement.allStatementIds testedProgram.statements, isIdentifier id = true) ∧
    ¬ ∃ blocky rules, projectBlocky (fun _ => "") testedStrategy
        (.ok .supported : Except String ExecutionClaim) = .ok blocky ∧
      projectRules (fun _ => "") testedStrategy
        (.ok .supported : Except String ExecutionClaim) = .ok rules ∧
      OmitsNoMeaning testedProgram blocky rules := by
  have hValid : validateStrategyV2 testedStrategy = [] := by decide +kernel
  refine ⟨hValid, by decide +kernel, ?_⟩
  rintro ⟨blocky, rules, hBlocky, -, hOmits⟩
  have hAccepted : Accepted testedProgram := (List.append_eq_nil_iff.mp hValid).2
  have hDrawn := drawn_of_omitsNoMeaning rfl hAccepted
    (by decide +kernel) hBlocky hOmits (.condition, "override-state") (by decide +kernel)
  exact absurd hDrawn (by decide +kernel)

end Completeness

end RuleTrade
