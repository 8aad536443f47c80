import RuleTrade.Properties.BlockyOutline
import RuleTrade.Authoring.Drafts

/-! Statements of a Program and their items in the Blocky view. A statement has
one entry under the entry of the statement around it. A condition or a value is
drawn at some places only: the view draws neither the conditions of policy rules
nor remembered values. -/

namespace RuleTrade

open Library

section Meanings

/-- A condition or a value, told by its semantic id. -/
abbrev Meaning := AddressKind × String

def BlockyBlock.meaning (block : BlockyBlock) : Meaning :=
  (block.address.kind, block.address.semanticId)

def ProjectionItem.meaning (item : ProjectionItem) : Meaning :=
  (item.address.kind, item.address.semanticId)

/-- The node and its operands at every depth. -/
def DailyValueNode.meanings : DailyValueNode → List Meaning
  | .arithmetic attrs _ left right =>
      (.value, attrs.semanticId) :: (left.meanings ++ right.meanings)
  | .current attrs operand | .history attrs _ _ operand | .indicator attrs _ _ _ operand
  | .absolute attrs operand | .reduce attrs _ _ _ _ _ operand =>
      (.value, attrs.semanticId) :: operand.meanings
  | .literal attrs _ _ _ _ | .observe attrs _ _ => [(.value, attrs.semanticId)]

mutual

/-- The value and everything it is computed from. -/
def ValueExpression.meanings : ValueExpression → List Meaning
  | .daily node => node.meanings
  | .crossSectional id source _ _ _ _ | .crossSectionalAggregate id source _ _ _ =>
      (.value, id) :: source.meanings
  | .score id terms conditionTerms _ =>
      (.value, id) :: (ScoreTerm.meanings terms ++ ConditionPointTerm.meanings conditionTerms)
  | .eventRelative id _ source _ | .clockedValue id source _ => (.value, id) :: source.meanings
  | .literal id _ _ _ _ | .candidateTrailingReturn id _ _ _ | .candidateCurrentPrice id _ _
  | .rememberedValue id _ _ _ _ | .barsSinceEvent id _ | .barsSinceState id _
  | .timeSinceEvent id _ | .timeSinceState id _ => [(.value, id)]

def ScoreTerm.meanings : List ScoreTerm → List Meaning
  | [] => []
  | .mk _ value _ :: rest => value.meanings ++ ScoreTerm.meanings rest

def ConditionPointTerm.meanings : List ConditionPointTerm → List Meaning
  | [] => []
  | .mk _ condition _ _ _ :: rest => condition.meanings ++ ConditionPointTerm.meanings rest

def Condition.meanings : Condition → List Meaning
  | .comparison id _ left right => (.condition, id) :: (left.meanings ++ right.meanings)
  | .booleanGroup id _ children | .nOfM id _ children =>
      (.condition, id) :: Condition.allMeanings children
  | .not id child => (.condition, id) :: child.meanings
  | .stateEquals id _ _ | .eventWindow id _ _ => [(.condition, id)]

def Condition.allMeanings : List Condition → List Meaning
  | [] => []
  | child :: rest => child.meanings ++ Condition.allMeanings rest

end

/-- Conditions and values a statement evaluates by itself. -/
def ProgramStatement.evaluated : ProgramStatement → List Meaning
  | .select s =>
      (s.selection.eligibility.map Condition.meanings).getD [] ++ s.selection.ranking.meanings
  | .control head _ _ => head.condition.meanings
  | .onEvent _ event _ => (event.condition.map Condition.meanings).getD []
  | .transition _ t => t.when.meanings
  | .rememberValue s => s.value.meanings
  | .guardedAllocation s =>
      (s.guard.map Condition.meanings).getD [] ++
        s.overrides.flatMap (fun rule => rule.when.meanings)
  | .allocate _ | .unresolved _ => []

/-- Those the Blocky view does not draw: the conditions of policy rules and
remembered values. -/
def ProgramStatement.undrawn : ProgramStatement → List Meaning
  | .rememberValue s => s.value.meanings
  | .guardedAllocation s => s.overrides.flatMap (fun rule => rule.when.meanings)
  | _ => []

/-- Those it draws. -/
def ProgramStatement.drawn : ProgramStatement → List Meaning
  | .select s =>
      (s.selection.eligibility.map Condition.meanings).getD [] ++ s.selection.ranking.meanings
  | .control head _ _ => head.condition.meanings
  | .onEvent _ event _ => (event.condition.map Condition.meanings).getD []
  | .transition _ t => t.when.meanings
  | .guardedAllocation s => (s.guard.map Condition.meanings).getD []
  | .allocate _ | .rememberValue _ | .unresolved _ => []

theorem ProgramStatement.mem_evaluated_iff {s : ProgramStatement} {meaning : Meaning} :
    meaning ∈ s.evaluated ↔ meaning ∈ s.drawn ∨ meaning ∈ s.undrawn := by
  cases s <;> simp [evaluated, drawn, undrawn]

def SemanticProgram.evaluated (program : SemanticProgram) : List Meaning :=
  (allProgramStatements program.statements).flatMap ProgramStatement.evaluated

def SemanticProgram.drawn (program : SemanticProgram) : List Meaning :=
  (allProgramStatements program.statements).flatMap ProgramStatement.drawn

def SemanticProgram.undrawn (program : SemanticProgram) : List Meaning :=
  (allProgramStatements program.statements).flatMap ProgramStatement.undrawn

theorem SemanticProgram.mem_evaluated_iff {program : SemanticProgram} {meaning : Meaning} :
    meaning ∈ program.evaluated ↔ meaning ∈ program.drawn ∨ meaning ∈ program.undrawn := by
  simp only [evaluated, drawn, undrawn, List.mem_flatMap, ProgramStatement.mem_evaluated_iff]
  constructor
  · rintro ⟨s, hs, h | h⟩
    · exact .inl ⟨s, hs, h⟩
    · exact .inr ⟨s, hs, h⟩
  · rintro (⟨s, hs, h⟩ | ⟨s, hs, h⟩)
    · exact ⟨s, hs, .inl h⟩
    · exact ⟨s, hs, .inr h⟩

end Meanings

section Enclosure

mutual

/-- Statements depth first, each with the id of the statement around it. -/
def ProgramStatement.enclosed (around : Option String) :
    ProgramStatement → List (String × Option String)
  | .control head thenStatements otherwiseStatements =>
      (head.semanticId, around) ::
        (ProgramStatement.allEnclosed (some head.semanticId) thenStatements ++
          ProgramStatement.allEnclosed (some head.semanticId) otherwiseStatements)
  | .onEvent id _ body => (id, around) :: ProgramStatement.allEnclosed (some id) body
  | .guardedAllocation s =>
      (s.semanticId, around) :: s.actions.map (fun a => (a.semanticId, some s.semanticId))
  | .select s => [(s.semanticId, around)]
  | .allocate s => [(s.semanticId, around)]
  | .transition id _ => [(id, around)]
  | .rememberValue s => [(s.semanticId, around)]
  | .unresolved s => [(s.semanticId, around)]

def ProgramStatement.allEnclosed (around : Option String) :
    List ProgramStatement → List (String × Option String)
  | [] => []
  | statement :: rest =>
      statement.enclosed around ++ ProgramStatement.allEnclosed around rest

end

/-- Statements of a Program other than the placeholder at its top. -/
def SemanticProgram.enclosed (program : SemanticProgram) : List (String × Option String) :=
  ProgramStatement.allEnclosed none
    (program.statements.filter (fun statement => !statement.isBlankBootstrap))

/-- Item of a statement, or of the strategy where there is none. -/
def SemanticProgram.itemAround (program : SemanticProgram) : Option String → String
  | some id => "blocky:" ++ id
  | none => "blocky:context:" ++ program.semanticId

end Enclosure

section Outlines

variable (decimalText : ℚ → String)

theorem meanings_dailyOutline (node : DailyValueNode) (path : String) (detail : Option String) :
    (dailyOutline node path detail).nodes.map (fun n => n.content.meaning) = node.meanings := by
  induction node generalizing path detail with
  | arithmetic attrs operator left right ihLeft ihRight =>
      simp only [dailyOutline, Outline.nodes, Outline.allNodes, List.map_cons, List.map_append,
        ihLeft, ihRight, DailyValueNode.meanings, List.append_nil]
      rfl
  | literal => rfl
  | observe => rfl
  | _ =>
      rename_i ih
      simp only [dailyOutline, Outline.nodes, Outline.allNodes, List.map_cons, ih,
        DailyValueNode.meanings, List.append_nil]
      rfl

mutual

theorem meanings_valueOutline : ∀ (value : ValueExpression) (path : String) (detail : Option String),
    (valueOutline decimalText value path detail).nodes.map (fun n => n.content.meaning) =
      value.meanings
  | .daily node, path, detail => meanings_dailyOutline node path detail
  | .score id terms conditionTerms policy, path, detail => by
      simp only [valueOutline, Outline.nodes, Outline.allNodes_append, List.map_cons,
        List.map_append, meanings_termOutlines, meanings_conditionTermOutlines,
        ValueExpression.meanings]
      rfl
  | .crossSectional id source domain transform direction bins, path, detail => by
      simp only [valueOutline, Outline.nodes, Outline.allNodes, List.map_cons, List.append_nil,
        meanings_valueOutline source, ValueExpression.meanings]
      rfl
  | .crossSectionalAggregate id source domain reduction coverage, path, detail => by
      simp only [valueOutline, Outline.nodes, Outline.allNodes, List.map_cons, List.append_nil,
        meanings_valueOutline source, ValueExpression.meanings]
      rfl
  | .eventRelative id event source offset, path, detail => by
      simp only [valueOutline, Outline.nodes, Outline.allNodes, List.map_cons, List.append_nil,
        meanings_dailyOutline, ValueExpression.meanings]
      rfl
  | .clockedValue id source clock, path, detail => by
      simp only [valueOutline, Outline.nodes, Outline.allNodes, List.map_cons, List.append_nil,
        meanings_dailyOutline, ValueExpression.meanings]
      rfl
  | .literal id value quantity unit refinement, path, detail => rfl
  | .candidateTrailingReturn id binding lookback clock, path, detail => rfl
  | .candidateCurrentPrice id binding clock, path, detail => rfl
  | .rememberedValue id memory quantity unit refinement, path, detail => rfl
  | .barsSinceEvent id event, path, detail => rfl
  | .barsSinceState id key, path, detail => rfl
  | .timeSinceEvent id event, path, detail => rfl
  | .timeSinceState id key, path, detail => rfl

theorem meanings_termOutlines : ∀ (terms : List ScoreTerm) (path : String) (index : Nat),
    (Outline.allNodes (termOutlines decimalText terms path index)).map
      (fun n => n.content.meaning) = ScoreTerm.meanings terms
  | [], path, index => rfl
  | .mk id value weight :: rest, path, index => by
      rw [termOutlines, Outline.allNodes, List.map_append, meanings_valueOutline value,
        meanings_termOutlines rest, ScoreTerm.meanings]

theorem meanings_conditionTermOutlines : ∀ (terms : List ConditionPointTerm) (path : String)
    (index : Nat), (Outline.allNodes (conditionTermOutlines decimalText terms path index)).map
      (fun n => n.content.meaning) = ConditionPointTerm.meanings terms
  | [], path, index => rfl
  | .mk id condition truePoints falsePoints unknownPoints :: rest, path, index => by
      rw [conditionTermOutlines, Outline.allNodes, List.map_append,
        meanings_conditionOutline condition, meanings_conditionTermOutlines rest,
        ConditionPointTerm.meanings]

theorem meanings_conditionOutline : ∀ (condition : Condition) (path : String)
    (detail : Option String), (conditionOutline decimalText condition path detail).nodes.map
      (fun n => n.content.meaning) = condition.meanings
  | .comparison id operator left right, path, detail => by
      simp only [conditionOutline, Outline.nodes, Outline.allNodes, List.map_cons,
        List.map_append, List.append_nil, meanings_valueOutline left, meanings_valueOutline right,
        Condition.meanings]
      rfl
  | .booleanGroup id kind children, path, detail => by
      simp only [conditionOutline, Outline.nodes, List.map_cons, meanings_childOutlines children,
        Condition.meanings]
      rfl
  | .nOfM id minimumTrue children, path, detail => by
      simp only [conditionOutline, Outline.nodes, List.map_cons, meanings_childOutlines children,
        Condition.meanings]
      rfl
  | .not id child, path, detail => by
      simp only [conditionOutline, Outline.nodes, Outline.allNodes, List.map_cons,
        List.append_nil, meanings_conditionOutline child, Condition.meanings]
      rfl
  | .stateEquals id key expected, path, detail => rfl
  | .eventWindow id event relation, path, detail => rfl

theorem meanings_childOutlines : ∀ (children : List Condition) (path : String) (index : Nat),
    (Outline.allNodes (childOutlines decimalText children path index)).map
      (fun n => n.content.meaning) = Condition.allMeanings children
  | [], path, index => rfl
  | child :: rest, path, index => by
      rw [childOutlines, Outline.allNodes, List.map_append, meanings_conditionOutline child,
        meanings_childOutlines rest, Condition.allMeanings]

end

end Outlines

section Statements

variable (decimalText : ℚ → String)

/-- Contents that are not those of a condition or a value. -/
inductive BlockyBlock.Structural : BlockyBlock → Prop where
  | statement (statement : ProgramStatement) (path : String) (relation : Option String) :
      Structural (statementBlock statement path relation)
  | fallback (semanticId asset path : String) : Structural (fallbackBlock semanticId asset path)

theorem statementBlock_unshared (s : ProgramStatement) (path : String) (relation : Option String) :
    (statementBlock s path relation).shared = false := by
  cases s <;> rfl

theorem BlockyBlock.Structural.unshared {block : BlockyBlock} (h : block.Structural) :
    block.shared = false := by
  cases h with
  | statement s path relation => exact statementBlock_unshared s path relation
  | fallback semanticId asset path => rfl

/-- The shown condition is part of the document of its statement. -/
theorem shownCondition_addressed {s : ProgramStatement} {c : Condition}
    (h : s.shownCondition = some c) :
    addressedObjects c.document ⊆ addressedObjects s.document := by
  cases s with
  | select s =>
      have hField : addressedObjects c.document ⊆ addressedObjects s.selection.document := by
        apply addressedObjects_field "eligibility"
        rw [show s.selection.eligibility = some c from h]
        simp [optional]
      exact List.Subset.trans hField (addressedObjects_field "selection" (by simp))
  | control head thenStatements otherwiseStatements =>
      obtain rfl := Option.some.inj h
      exact addressedObjects_field "condition" (by simp)
  | onEvent id event body =>
      have hField : addressedObjects c.document ⊆ addressedObjects event.document := by
        apply addressedObjects_field "condition"
        rw [show event.condition = some c from h]
        simp [optional]
      exact List.Subset.trans hField (addressedObjects_field "event" (by simp))
  | transition id t =>
      obtain rfl := Option.some.inj h
      have hField : addressedObjects t.when.document ⊆ addressedObjects t.document :=
        addressedObjects_field "when" (by simp)
      exact List.Subset.trans hField (addressedObjects_field "transition" (by simp))
  | guardedAllocation s =>
      apply addressedObjects_field "guard"
      rw [show s.guard = some c from h]
      simp [optional]
  | allocate s => cases h
  | rememberValue s => cases h
  | unresolved s => cases h

theorem ranking_addressed (s : SelectionStatement) :
    addressedObjects s.selection.ranking.document ⊆
      addressedObjects (ProgramStatement.select s).document := by
  have hField : addressedObjects s.selection.ranking.document ⊆
      addressedObjects s.selection.document := addressedObjects_field "ranking" (by simp)
  exact List.Subset.trans hField (addressedObjects_field "selection" (by simp))

/-- Nodes of the condition a statement shows. -/
theorem traced_conditionOutlines {s : ProgramStatement} {path : String} {n : Outline BlockyBlock}
    (hn : n ∈ Outline.allNodes (conditionOutlines decimalText s path)) :
    Traced (addressedObjects s.document) n := by
  unfold conditionOutlines at hn
  cases hShown : s.shownCondition with
  | none =>
      rw [hShown] at hn
      exact absurd hn List.not_mem_nil
  | some c =>
      rw [hShown] at hn
      simp only [Option.map_some, Option.toList_some, Outline.allNodes, List.append_nil] at hn
      exact (traced_conditionOutline decimalText c _ _ n hn).mono (shownCondition_addressed hShown)

theorem drawn_conditionOutlines (s : ProgramStatement) (path : String) :
    (Outline.allNodes (conditionOutlines decimalText s path)).map (fun n => n.content.meaning) =
      (s.shownCondition.map Condition.meanings).getD [] := by
  unfold conditionOutlines
  cases s.shownCondition with
  | none => rfl
  | some c =>
      simp only [Option.map_some, Option.toList_some, Outline.allNodes, List.append_nil,
        meanings_conditionOutline, Option.getD_some]

/-- Outlines of the actions of a policy have nothing under them. -/
theorem allNodes_actionOutlines (s : GuardedAllocationStatement) (path : String) :
    Outline.allNodes (actionOutlines s path) = actionOutlines s path := by
  have hLeaves : ∀ ts : List (Outline BlockyBlock), (∀ t ∈ ts, t.children = []) →
      Outline.allNodes ts = ts := by
    intro ts
    induction ts with
    | nil => intro _; rfl
    | cons t rest ih =>
        intro h
        obtain ⟨a, children⟩ := t
        obtain rfl : children = [] := h _ List.mem_cons_self
        rw [Outline.allNodes, ih (fun t ht => h t (List.mem_cons_of_mem _ ht))]
        rfl
  apply hLeaves
  intro t ht
  obtain ⟨index, hIndex, rfl⟩ := List.mem_mapIdx.mp ht
  rfl

theorem children_actions (s : GuardedAllocationStatement) :
    s.children.map Prod.snd = s.actions := by
  cases hFallback : s.fallback <;>
    simp [GuardedAllocationStatement.children, GuardedAllocationStatement.actions, hFallback,
      Function.comp_def]

theorem structural_actionOutlines {s : GuardedAllocationStatement} {path : String}
    {n : Outline BlockyBlock} (hn : n ∈ Outline.allNodes (actionOutlines s path)) :
    n.content.Structural := by
  rw [allNodes_actionOutlines] at hn
  obtain ⟨index, hIndex, rfl⟩ := List.mem_mapIdx.mp hn
  exact .statement _ _ _

theorem traced_selectionOutlines {s : SelectionStatement} {path : String}
    {n : Outline BlockyBlock} (hn : n ∈ Outline.allNodes (selectionOutlines decimalText s path)) :
    Traced (addressedObjects (ProgramStatement.select s).document) n ∨ n.content.Structural := by
  rcases List.mem_append.mp hn with hn | hn
  · exact .inl ((traced_valueOutline decimalText _ _ _ n hn).mono (ranking_addressed s))
  · cases hFallback : s.selection.fallbackAsset with
    | none =>
        rw [hFallback] at hn
        exact absurd hn List.not_mem_nil
    | some asset =>
        rw [hFallback] at hn
        rw [List.mem_singleton.mp hn]
        exact .inr (.fallback _ _ _)

mutual

/-- A node is drawn from an addressed object, or it is a statement or a fallback. -/
theorem nodes_statementOutline : ∀ (s : ProgramStatement) (path : String)
    (relation : Option String), ∀ n ∈ (statementOutline decimalText s path relation).nodes,
      Traced (addressedObjects s.document) n ∨ n.content.Structural
  | .control head thenStatements otherwiseStatements, path, relation, n, hn => by
      rcases List.mem_cons.mp hn with rfl | hn
      · exact .inr (.statement _ _ _)
      · simp only [Outline.allNodes_append, List.mem_append] at hn
        rcases hn with (hn | hn) | hn
        · exact .inl (traced_conditionOutlines decimalText hn)
        · apply (nodes_statementOutlines thenStatements path "then" 0 n hn).imp_left
          exact fun h => h.mono (addressedObjects_field "then_statements" (by simp))
        · apply (nodes_statementOutlines otherwiseStatements path "otherwise" _ n hn).imp_left
          exact fun h => h.mono (addressedObjects_field "otherwise_statements" (by simp))
  | .onEvent id event body, path, relation, n, hn => by
      rcases List.mem_cons.mp hn with rfl | hn
      · exact .inr (.statement _ _ _)
      · simp only [Outline.allNodes_append, List.mem_append] at hn
        rcases hn with hn | hn
        · exact .inl (traced_conditionOutlines decimalText hn)
        · apply (nodes_statementOutlines body path "event" 0 n hn).imp_left
          exact fun h => h.mono (addressedObjects_field "statements" (by simp))
  | .select s, path, relation, n, hn => by
      rcases List.mem_cons.mp hn with rfl | hn
      · exact .inr (.statement _ _ _)
      · rw [Outline.allNodes_append] at hn
        rcases List.mem_append.mp hn with hn | hn
        · exact .inl (traced_conditionOutlines decimalText hn)
        · exact traced_selectionOutlines decimalText hn
  | .guardedAllocation s, path, relation, n, hn => by
      rcases List.mem_cons.mp hn with rfl | hn
      · exact .inr (.statement _ _ _)
      · rw [Outline.allNodes_append] at hn
        rcases List.mem_append.mp hn with hn | hn
        · exact .inl (traced_conditionOutlines decimalText hn)
        · exact .inr (structural_actionOutlines hn)
  | .transition id t, path, relation, n, hn => by
      rcases List.mem_cons.mp hn with rfl | hn
      · exact .inr (.statement _ _ _)
      · exact .inl (traced_conditionOutlines decimalText hn)
  | .allocate s, path, relation, n, hn => by
      rw [List.mem_singleton.mp hn]
      exact .inr (.statement _ _ _)
  | .rememberValue s, path, relation, n, hn => by
      rw [List.mem_singleton.mp hn]
      exact .inr (.statement _ _ _)
  | .unresolved s, path, relation, n, hn => by
      rw [List.mem_singleton.mp hn]
      exact .inr (.statement _ _ _)

theorem nodes_statementOutlines : ∀ (statements : List ProgramStatement) (path relation : String)
    (index : Nat), ∀ n ∈ Outline.allNodes (statementOutlines decimalText statements path relation
      index), Traced (addressedObjects (.array (ProgramStatement.documents statements))) n ∨
        n.content.Structural
  | [], path, relation, index, n, hn => absurd hn List.not_mem_nil
  | s :: rest, path, relation, index, n, hn => by
      rcases List.mem_append.mp hn with hn | hn
      · apply (nodes_statementOutline s _ _ n hn).imp_left
        exact fun h => h.mono (addressedObjects_item List.mem_cons_self)
      · apply (nodes_statementOutlines rest path relation (index + 1) n hn).imp_left
        exact fun h => h.mono (List.subset_append_right _ _)

end

/-- Nodes that are shared, of any outlines. -/
def sharedMeanings (ts : List (Outline BlockyBlock)) : List Meaning :=
  ((Outline.allNodes ts).filter (fun n => n.content.shared)).map (fun n => n.content.meaning)

theorem sharedMeanings_nil : sharedMeanings [] = [] := rfl

theorem sharedMeanings_append (ts us : List (Outline BlockyBlock)) :
    sharedMeanings (ts ++ us) = sharedMeanings ts ++ sharedMeanings us := by
  simp [sharedMeanings]

theorem sharedMeanings_of_shared {ts : List (Outline BlockyBlock)}
    (h : ∀ n ∈ Outline.allNodes ts, n.content.shared = true) :
    sharedMeanings ts = (Outline.allNodes ts).map (fun n => n.content.meaning) := by
  rw [sharedMeanings, List.filter_eq_self.mpr h]

theorem sharedMeanings_of_structural {ts : List (Outline BlockyBlock)}
    (h : ∀ n ∈ Outline.allNodes ts, n.content.Structural) : sharedMeanings ts = [] := by
  rw [sharedMeanings, List.filter_eq_nil_iff.mpr, List.map_nil]
  intro n hn
  simp [(h n hn).unshared]

theorem sharedMeanings_conditionOutlines (s : ProgramStatement) (path : String) :
    sharedMeanings (conditionOutlines decimalText s path) =
      (s.shownCondition.map Condition.meanings).getD [] := by
  rw [← drawn_conditionOutlines decimalText s path]
  apply sharedMeanings_of_shared
  intro n hn
  exact (traced_conditionOutlines decimalText hn).expression.isShared

theorem sharedMeanings_selectionOutlines (s : SelectionStatement) (path : String) :
    sharedMeanings (selectionOutlines decimalText s path) = s.selection.ranking.meanings := by
  have hRanking : sharedMeanings [valueOutline decimalText s.selection.ranking
      (path ++ ".selection.ranking") (some ("rank " ++ s.selection.direction.text))] =
        s.selection.ranking.meanings := by
    rw [sharedMeanings_of_shared, Outline.allNodes, Outline.allNodes, List.append_nil,
      meanings_valueOutline]
    intro n hn
    rw [Outline.allNodes, Outline.allNodes, List.append_nil] at hn
    exact (traced_valueOutline decimalText _ _ _ n hn).expression.isShared
  rw [selectionOutlines, ← List.singleton_append, sharedMeanings_append, hRanking,
    sharedMeanings_of_structural, List.append_nil]
  intro n hn
  cases hFallback : s.selection.fallbackAsset with
  | none =>
      rw [hFallback] at hn
      exact absurd hn List.not_mem_nil
  | some asset =>
      rw [hFallback] at hn
      rw [List.mem_singleton.mp hn]
      exact .fallback _ _ _

/-- A statement adds nothing shared of its own. -/
theorem sharedMeanings_statement (s : ProgramStatement) (path : String) (relation : Option String)
    (children rest : List (Outline BlockyBlock)) :
    sharedMeanings (.node (statementBlock s path relation) children :: rest) =
      sharedMeanings children ++ sharedMeanings rest := by
  rw [sharedMeanings, Outline.allNodes, Outline.nodes, List.cons_append, List.filter_cons_of_neg,
    List.filter_append, List.map_append]
  · rfl
  · simp [Outline.content, statementBlock_unshared]

mutual

/-- The shared nodes of a statement are what the statements under it draw. -/
theorem drawn_statementOutline : ∀ (s : ProgramStatement) (path : String)
    (relation : Option String), sharedMeanings [statementOutline decimalText s path relation] =
      s.flatten.flatMap ProgramStatement.drawn
  | .control head thenStatements otherwiseStatements, path, relation => by
      rw [statementOutline, sharedMeanings_statement, sharedMeanings_append, sharedMeanings_append,
        sharedMeanings_conditionOutlines, drawn_statementOutlines thenStatements,
        drawn_statementOutlines otherwiseStatements, ProgramStatement.flatten, List.flatMap_cons,
        List.flatMap_append, sharedMeanings_nil, List.append_nil, List.append_assoc]
      rfl
  | .onEvent id event body, path, relation => by
      rw [statementOutline, sharedMeanings_statement, sharedMeanings_append,
        sharedMeanings_conditionOutlines, drawn_statementOutlines body, ProgramStatement.flatten,
        List.flatMap_cons]
      exact List.append_nil _
  | .select s, path, relation => by
      rw [statementOutline, sharedMeanings_statement, sharedMeanings_append,
        sharedMeanings_conditionOutlines, sharedMeanings_selectionOutlines,
        ProgramStatement.flatten, List.flatMap_singleton]
      exact List.append_nil _
  | .guardedAllocation s, path, relation => by
      have hActions : (s.actions.map ProgramStatement.allocate).flatMap ProgramStatement.drawn =
          [] := by
        rw [List.flatMap_eq_nil_iff]
        intro action hAction
        obtain ⟨a, ha, rfl⟩ := List.mem_map.mp hAction
        rfl
      rw [statementOutline, sharedMeanings_statement, sharedMeanings_append,
        sharedMeanings_conditionOutlines, ProgramStatement.flatten, List.flatMap_cons, hActions,
        sharedMeanings_of_structural (fun n hn => structural_actionOutlines hn),
        sharedMeanings_nil, List.append_nil]
      rfl
  | .transition id t, path, relation => by
      rw [statementOutline, sharedMeanings_statement, sharedMeanings_conditionOutlines,
        ProgramStatement.flatten, List.flatMap_singleton]
      exact List.append_nil _
  | .allocate s, path, relation => by
      rw [statementOutline, sharedMeanings_statement]
      rfl
  | .rememberValue s, path, relation => by
      rw [statementOutline, sharedMeanings_statement]
      rfl
  | .unresolved s, path, relation => by
      rw [statementOutline, sharedMeanings_statement]
      rfl

theorem drawn_statementOutlines : ∀ (statements : List ProgramStatement) (path relation : String)
    (index : Nat), sharedMeanings (statementOutlines decimalText statements path relation index) =
      (allProgramStatements statements).flatMap ProgramStatement.drawn
  | [], path, relation, index => rfl
  | s :: rest, path, relation, index => by
      rw [statementOutlines, ← List.singleton_append, sharedMeanings_append,
        drawn_statementOutline s, drawn_statementOutlines rest, allProgramStatements,
        List.flatMap_append]

end

end Statements

section Entries

variable (decimalText : ℚ → String)

/-- The block of a statement itself. -/
def BlockyBlock.isStatement (block : BlockyBlock) : Bool :=
  block.address.kind = .statement && block.role ≠ .fallback

theorem BlockyBlock.Expression.isStatement_eq {block : BlockyBlock} (h : block.Expression) :
    block.isStatement = false := by
  cases h <;> rfl

theorem BlockyBlock.Expression.role_ne {block : BlockyBlock} (h : block.Expression) :
    block.role ≠ .fallback := by
  cases h <;> exact ProjectionRole.noConfusion

/-- Entries of statements, each with its meaning and its parent. -/
def statementEntries (entries : List (BlockyBlock × Option String)) :
    List (Meaning × Option String) :=
  (entries.filter (fun entry => entry.1.isStatement)).map (fun entry => (entry.1.meaning, entry.2))

/-- Fallback entries, each with the statement it belongs to and its parent. -/
def fallbackEntries (entries : List (BlockyBlock × Option String)) :
    List (String × Option String) :=
  (entries.filter (fun entry => entry.1.role = .fallback)).map
    (fun entry => (entry.1.address.semanticId, entry.2))

theorem statementEntries_append (xs ys : List (BlockyBlock × Option String)) :
    statementEntries (xs ++ ys) = statementEntries xs ++ statementEntries ys := by
  simp [statementEntries]

theorem fallbackEntries_append (xs ys : List (BlockyBlock × Option String)) :
    fallbackEntries (xs ++ ys) = fallbackEntries xs ++ fallbackEntries ys := by
  simp [fallbackEntries]

theorem statementBlock_role (s : ProgramStatement) : s.label.1 ≠ .fallback := by
  cases s <;> simp [ProgramStatement.label]

theorem statementEntries_statement (s : ProgramStatement) (path : String)
    (relation parent : Option String) (children : List (Outline BlockyBlock)) :
    statementEntries (Outline.entries BlockyBlock.id parent
      (.node (statementBlock s path relation) children)) =
        ((.statement, s.semanticId), parent) :: statementEntries (Outline.allEntries BlockyBlock.id
          (some ("blocky:" ++ s.semanticId)) children) := by
  have hOwn : (statementBlock s path relation).isStatement = true := by
    simp [BlockyBlock.isStatement, statementBlock, statementBlock_role]
  rw [Outline.entries, statementEntries, List.filter_cons_of_pos (by exact hOwn), List.map_cons]
  rfl

theorem fallbackEntries_statement (s : ProgramStatement) (path : String)
    (relation parent : Option String) (children : List (Outline BlockyBlock)) :
    fallbackEntries (Outline.entries BlockyBlock.id parent
      (.node (statementBlock s path relation) children)) =
        fallbackEntries (Outline.allEntries BlockyBlock.id (some ("blocky:" ++ s.semanticId))
          children) := by
  rw [Outline.entries, fallbackEntries, List.filter_cons_of_neg]
  · rfl
  · simp [statementBlock, statementBlock_role]

/-- Entries of conditions and values are neither statements nor fallbacks. -/
theorem entries_of_expressions (ts : List (Outline BlockyBlock)) (parent : Option String)
    (h : ∀ n ∈ Outline.allNodes ts, n.content.Expression) :
    statementEntries (Outline.allEntries BlockyBlock.id parent ts) = [] ∧
      fallbackEntries (Outline.allEntries BlockyBlock.id parent ts) = [] := by
  have hEntry : ∀ entry ∈ Outline.allEntries BlockyBlock.id parent ts, entry.1.Expression := by
    intro entry hEntry
    have hContents : (Outline.allEntries BlockyBlock.id parent ts).map Prod.fst =
        (Outline.allNodes ts).map Outline.content := Outline.contents_allEntries parent ts
    have hContent : entry.1 ∈ (Outline.allNodes ts).map Outline.content := by
      rw [← hContents]
      exact List.mem_map_of_mem hEntry
    obtain ⟨n, hn, hContent⟩ := List.mem_map.mp hContent
    rw [← hContent]
    exact h n hn
  constructor
  · rw [statementEntries, List.filter_eq_nil_iff.mpr, List.map_nil]
    intro entry hMem
    simp [(hEntry entry hMem).isStatement_eq]
  · rw [fallbackEntries, List.filter_eq_nil_iff.mpr, List.map_nil]
    intro entry hMem
    simp [(hEntry entry hMem).role_ne]

theorem entries_conditionOutlines (s : ProgramStatement) (path : String) (parent : Option String) :
    statementEntries (Outline.allEntries BlockyBlock.id parent
      (conditionOutlines decimalText s path)) = [] ∧
    fallbackEntries (Outline.allEntries BlockyBlock.id parent
      (conditionOutlines decimalText s path)) = [] := by
  apply entries_of_expressions
  intro n hn
  exact (traced_conditionOutlines decimalText hn).expression

theorem entries_selectionOutlines (s : SelectionStatement) (path : String)
    (parent : Option String) :
    statementEntries (Outline.allEntries BlockyBlock.id parent
      (selectionOutlines decimalText s path)) = [] ∧
    fallbackEntries (Outline.allEntries BlockyBlock.id parent
      (selectionOutlines decimalText s path)) = (s.selection.fallbackAsset.map
        (fun _ => (s.semanticId, parent))).toList := by
  have hRanking := entries_of_expressions [valueOutline decimalText s.selection.ranking
      (path ++ ".selection.ranking") (some ("rank " ++ s.selection.direction.text))] parent (by
    intro n hn
    rw [Outline.allNodes, Outline.allNodes, List.append_nil] at hn
    exact (traced_valueOutline decimalText _ _ _ n hn).expression)
  rw [selectionOutlines, ← List.singleton_append, Outline.allEntries_append,
    statementEntries_append, fallbackEntries_append, hRanking.1, hRanking.2]
  cases s.selection.fallbackAsset with
  | none => exact ⟨rfl, rfl⟩
  | some asset => exact ⟨rfl, rfl⟩

theorem entries_actionOutlines (s : GuardedAllocationStatement) (path : String)
    (parent : Option String) :
    statementEntries (Outline.allEntries BlockyBlock.id parent (actionOutlines s path)) =
      s.actions.map (fun a => ((.statement, a.semanticId), parent)) ∧
    fallbackEntries (Outline.allEntries BlockyBlock.id parent (actionOutlines s path)) = [] := by
  rw [← children_actions, actionOutlines]
  generalize hBlock : (fun (index : Nat) (child : String × AllocationStatement) => Outline.node
    (statementBlock (.allocate child.2) (indexed (path ++ "." ++ child.1) index) (some child.1)) [])
      = draw
  have hDraw : ∀ index child, ∃ path relation,
      draw index child = .node (statementBlock (.allocate child.2) path relation) [] := by
    intro index child
    rw [← hBlock]
    exact ⟨_, _, rfl⟩
  clear hBlock
  induction s.children generalizing draw with
  | nil => exact ⟨rfl, rfl⟩
  | cons child rest ih =>
      obtain ⟨path', relation, hChild⟩ := hDraw 0 child
      obtain ⟨hStatements, hFallbacks⟩ := ih (fun index => draw (index + 1))
        (fun index => hDraw (index + 1))
      rw [List.mapIdx_cons, hChild, Outline.allEntries, statementEntries_append,
        fallbackEntries_append, statementEntries_statement, fallbackEntries_statement, hStatements,
        hFallbacks]
      exact ⟨rfl, rfl⟩

mutual

/-- Statements are entered depth first, each under the statement around it, and
a fallback under its own Selection. -/
theorem entries_statementOutline (itemOf : Option String → String)
    (hItem : ∀ id, itemOf (some id) = "blocky:" ++ id) : ∀ (s : ProgramStatement) (path : String)
    (relation around : Option String),
    statementEntries (Outline.entries BlockyBlock.id (some (itemOf around))
      (statementOutline decimalText s path relation)) =
        (s.enclosed around).map (fun entry => ((.statement, entry.1), some (itemOf entry.2))) ∧
    (fallbackEntries (Outline.entries BlockyBlock.id (some (itemOf around))
      (statementOutline decimalText s path relation))).Sublist
        ((s.enclosed around).map (fun entry => (entry.1, some ("blocky:" ++ entry.1))))
  | .control head thenStatements otherwiseStatements, path, relation, around => by
      obtain ⟨hCondition, hNoFallback⟩ := entries_conditionOutlines decimalText
        (.control head thenStatements otherwiseStatements) path
        (some ("blocky:" ++ head.semanticId))
      obtain ⟨hThen, hThenFallback⟩ := entries_statementOutlines itemOf hItem thenStatements path
        "then" 0 (some head.semanticId)
      obtain ⟨hOtherwise, hOtherwiseFallback⟩ := entries_statementOutlines itemOf hItem
        otherwiseStatements path "otherwise" thenStatements.length (some head.semanticId)
      rw [hItem] at hThen hThenFallback hOtherwise hOtherwiseFallback
      rw [statementOutline, statementEntries_statement, fallbackEntries_statement,
        Outline.allEntries_append, Outline.allEntries_append]
      simp only [statementEntries_append, fallbackEntries_append, ProgramStatement.semanticId,
        hCondition, hNoFallback, hThen, hOtherwise, ProgramStatement.enclosed, List.map_cons,
        List.map_append, List.nil_append]
      exact ⟨trivial, (hThenFallback.append hOtherwiseFallback).cons _⟩
  | .onEvent id event body, path, relation, around => by
      obtain ⟨hCondition, hNoFallback⟩ := entries_conditionOutlines decimalText
        (.onEvent id event body) path (some ("blocky:" ++ id))
      obtain ⟨hBody, hBodyFallback⟩ := entries_statementOutlines itemOf hItem body path "event" 0
        (some id)
      rw [hItem] at hBody hBodyFallback
      rw [statementOutline, statementEntries_statement, fallbackEntries_statement,
        Outline.allEntries_append]
      simp only [statementEntries_append, fallbackEntries_append, ProgramStatement.semanticId,
        hCondition, hNoFallback, hBody, ProgramStatement.enclosed, List.map_cons, List.nil_append]
      exact ⟨trivial, hBodyFallback.cons _⟩
  | .select s, path, relation, around => by
      obtain ⟨hCondition, hNoFallback⟩ := entries_conditionOutlines decimalText (.select s) path
        (some ("blocky:" ++ s.semanticId))
      obtain ⟨hSelection, hFallback⟩ := entries_selectionOutlines decimalText s path
        (some ("blocky:" ++ s.semanticId))
      rw [statementOutline, statementEntries_statement, fallbackEntries_statement,
        Outline.allEntries_append]
      simp only [statementEntries_append, fallbackEntries_append, ProgramStatement.semanticId,
        hCondition, hNoFallback, hSelection, hFallback, ProgramStatement.enclosed, List.map_cons,
        List.map_nil, List.nil_append]
      refine ⟨trivial, ?_⟩
      cases s.selection.fallbackAsset with
      | none => exact List.nil_sublist _
      | some asset => exact List.Sublist.refl _
  | .guardedAllocation s, path, relation, around => by
      obtain ⟨hCondition, hNoFallback⟩ := entries_conditionOutlines decimalText
        (.guardedAllocation s) path (some ("blocky:" ++ s.semanticId))
      obtain ⟨hActions, hNone⟩ := entries_actionOutlines s path (some ("blocky:" ++ s.semanticId))
      rw [statementOutline, statementEntries_statement, fallbackEntries_statement,
        Outline.allEntries_append]
      simp only [statementEntries_append, fallbackEntries_append, ProgramStatement.semanticId,
        hCondition, hNoFallback, hActions, hNone, ProgramStatement.enclosed, List.map_cons,
        List.map_map, List.nil_append]
      refine ⟨?_, List.nil_sublist _⟩
      congr 1
      apply List.map_congr_left
      intro a _
      rw [Function.comp_apply, hItem]
  | .transition id t, path, relation, around => by
      obtain ⟨hCondition, hNoFallback⟩ := entries_conditionOutlines decimalText (.transition id t)
        path (some ("blocky:" ++ id))
      rw [statementOutline, statementEntries_statement, fallbackEntries_statement]
      simp only [ProgramStatement.semanticId, hCondition, hNoFallback, ProgramStatement.enclosed,
        List.map_cons, List.map_nil]
      exact ⟨trivial, List.nil_sublist _⟩
  | .allocate s, path, relation, around => by
      rw [statementOutline, statementEntries_statement, fallbackEntries_statement]
      exact ⟨rfl, List.nil_sublist _⟩
  | .rememberValue s, path, relation, around => by
      rw [statementOutline, statementEntries_statement, fallbackEntries_statement]
      exact ⟨rfl, List.nil_sublist _⟩
  | .unresolved s, path, relation, around => by
      rw [statementOutline, statementEntries_statement, fallbackEntries_statement]
      exact ⟨rfl, List.nil_sublist _⟩

theorem entries_statementOutlines (itemOf : Option String → String)
    (hItem : ∀ id, itemOf (some id) = "blocky:" ++ id) : ∀ (statements : List ProgramStatement)
    (path relation : String) (index : Nat) (around : Option String),
    statementEntries (Outline.allEntries BlockyBlock.id (some (itemOf around))
      (statementOutlines decimalText statements path relation index)) =
        (ProgramStatement.allEnclosed around statements).map
          (fun entry => ((.statement, entry.1), some (itemOf entry.2))) ∧
    (fallbackEntries (Outline.allEntries BlockyBlock.id (some (itemOf around))
      (statementOutlines decimalText statements path relation index))).Sublist
        ((ProgramStatement.allEnclosed around statements).map
          (fun entry => (entry.1, some ("blocky:" ++ entry.1))))
  | [], path, relation, index, around => ⟨rfl, List.nil_sublist _⟩
  | s :: rest, path, relation, index, around => by
      obtain ⟨hFirst, hFirstFallback⟩ := entries_statementOutline itemOf hItem s
        (indexed (path ++ "." ++ relation) index) (some relation) around
      obtain ⟨hRest, hRestFallback⟩ := entries_statementOutlines itemOf hItem rest path relation
        (index + 1) around
      rw [statementOutlines, Outline.allEntries, statementEntries_append, fallbackEntries_append,
        ProgramStatement.allEnclosed, List.map_append, List.map_append, hFirst, hRest]
      exact ⟨rfl, hFirstFallback.append hRestFallback⟩

end

theorem drawn_blankBootstrap {s : ProgramStatement}
    (hBlank : s.isBlankBootstrap = true) : s.flatten.flatMap ProgramStatement.drawn = [] := by
  cases s with
  | allocate s => rfl
  | _ => cases hBlank

theorem nodes_topOutlines (statements : List ProgramStatement) (index : Nat) :
    ∀ n ∈ Outline.allNodes (topOutlines decimalText statements index),
      Traced (addressedObjects (.array (ProgramStatement.documents statements))) n ∨
        n.content.Structural := by
  induction statements generalizing index with
  | nil =>
      intro n hn
      exact absurd hn List.not_mem_nil
  | cons s rest ih =>
      have hRest : ∀ n ∈ Outline.allNodes (topOutlines decimalText rest (index + 1)),
          Traced (addressedObjects (.array (ProgramStatement.documents (s :: rest)))) n ∨
            n.content.Structural := by
        intro n hn
        apply (ih (index + 1) n hn).imp_left
        exact fun h => h.mono (List.subset_append_right _ _)
      intro n hn
      rw [topOutlines] at hn
      split at hn
      · exact hRest n hn
      · rcases List.mem_append.mp hn with hn | hn
        · apply (nodes_statementOutline decimalText s _ _ n hn).imp_left
          exact fun h => h.mono (addressedObjects_item List.mem_cons_self)
        · exact hRest n hn

theorem drawn_topOutlines (statements : List ProgramStatement) (index : Nat) :
    sharedMeanings (topOutlines decimalText statements index) =
      (allProgramStatements statements).flatMap ProgramStatement.drawn := by
  induction statements generalizing index with
  | nil => rfl
  | cons s rest ih =>
      rw [topOutlines, allProgramStatements, List.flatMap_append]
      split
      · rename_i hBlank
        rw [drawn_blankBootstrap hBlank, ih, List.nil_append]
      · rw [← List.singleton_append, sharedMeanings_append, drawn_statementOutline, ih]

theorem entries_topOutlines (itemOf : Option String → String)
    (hItem : ∀ id, itemOf (some id) = "blocky:" ++ id) (statements : List ProgramStatement)
    (index : Nat) :
    statementEntries (Outline.allEntries BlockyBlock.id (some (itemOf none))
      (topOutlines decimalText statements index)) =
        (ProgramStatement.allEnclosed none
          (statements.filter (fun statement => !statement.isBlankBootstrap))).map
          (fun entry => ((.statement, entry.1), some (itemOf entry.2))) ∧
    (fallbackEntries (Outline.allEntries BlockyBlock.id (some (itemOf none))
      (topOutlines decimalText statements index))).Sublist
        ((ProgramStatement.allEnclosed none
          (statements.filter (fun statement => !statement.isBlankBootstrap))).map
          (fun entry => (entry.1, some ("blocky:" ++ entry.1)))) := by
  induction statements generalizing index with
  | nil => exact ⟨rfl, List.nil_sublist _⟩
  | cons s rest ih =>
      rw [topOutlines]
      split
      · rename_i hBlank
        rw [List.filter_cons_of_neg (by simp [hBlank])]
        exact ih (index + 1)
      · rename_i hShown
        obtain ⟨hFirst, hFirstFallback⟩ := entries_statementOutline decimalText itemOf hItem s
          (indexed "program.statements" index) none none
        obtain ⟨hRest, hRestFallback⟩ := ih (index + 1)
        rw [List.filter_cons_of_pos (by simpa using hShown), Outline.allEntries,
          statementEntries_append, fallbackEntries_append, ProgramStatement.allEnclosed,
          List.map_append, List.map_append, hFirst, hRest]
        exact ⟨rfl, hFirstFallback.append hRestFallback⟩

end Entries

section Enclosed

mutual

/-- Statements enclosed are those registered, each under another statement. -/
theorem ids_enclosed (around : Option String) : ∀ s : ProgramStatement,
    (s.enclosed around).map Prod.fst = s.statementIds
  | .control head thenStatements otherwiseStatements => by
      rw [ProgramStatement.enclosed, ProgramStatement.statementIds, List.map_cons, List.map_append,
        ids_allEnclosed _ thenStatements, ids_allEnclosed _ otherwiseStatements]
  | .onEvent id event body => by
      rw [ProgramStatement.enclosed, ProgramStatement.statementIds, List.map_cons,
        ids_allEnclosed _ body]
  | .guardedAllocation s => by
      rw [ProgramStatement.enclosed, ProgramStatement.statementIds, List.map_cons, List.map_map]
      rfl
  | .select s => rfl
  | .allocate s => rfl
  | .transition id t => rfl
  | .rememberValue s => rfl
  | .unresolved s => rfl

theorem ids_allEnclosed (around : Option String) : ∀ statements : List ProgramStatement,
    (ProgramStatement.allEnclosed around statements).map Prod.fst =
      ProgramStatement.allStatementIds statements
  | [] => rfl
  | s :: rest => by
      rw [ProgramStatement.allEnclosed, ProgramStatement.allStatementIds, List.map_append,
        ids_enclosed around s, ids_allEnclosed around rest]

end

mutual

/-- With distinct ids no statement is around itself. -/
theorem enclosed_apart (around : Option String) : ∀ s : ProgramStatement, s.statementIds.Nodup →
    ∀ entry ∈ s.enclosed around, entry.2 = around ∨ ∃ id, entry.2 = some id ∧ id ≠ entry.1
  | .control head thenStatements otherwiseStatements, hNodup, entry, hEntry => by
      obtain ⟨hOwn, hBelow⟩ := List.nodup_cons.mp hNodup
      obtain ⟨hThen, hOtherwise, -⟩ := List.nodup_append'.mp hBelow
      rcases List.mem_cons.mp hEntry with rfl | hEntry
      · exact .inl rfl
      · have hId : entry.1 ∈ ProgramStatement.allStatementIds thenStatements ++
            ProgramStatement.allStatementIds otherwiseStatements := by
          rw [← ids_allEnclosed (some head.semanticId), ← ids_allEnclosed (some head.semanticId),
            ← List.map_append]
          exact List.mem_map_of_mem hEntry
        have hAround : entry.2 = some head.semanticId →
            ∃ id, entry.2 = some id ∧ id ≠ entry.1 := by
          intro hSome
          exact ⟨_, hSome, fun hSame => hOwn (hSame ▸ hId)⟩
        rcases List.mem_append.mp hEntry with hEntry | hEntry
        · exact .inr ((enclosed_allApart _ thenStatements hThen entry hEntry).elim hAround id)
        · exact .inr ((enclosed_allApart _ otherwiseStatements hOtherwise entry hEntry).elim
            hAround id)
  | .onEvent id event body, hNodup, entry, hEntry => by
      obtain ⟨hOwn, hBody⟩ := List.nodup_cons.mp hNodup
      rcases List.mem_cons.mp hEntry with rfl | hEntry
      · exact .inl rfl
      · have hId : entry.1 ∈ ProgramStatement.allStatementIds body := by
          rw [← ids_allEnclosed (some id)]
          exact List.mem_map_of_mem hEntry
        right
        rcases enclosed_allApart _ body hBody entry hEntry with hSome | hOther
        · exact ⟨_, hSome, fun hSame => hOwn (hSame ▸ hId)⟩
        · exact hOther
  | .guardedAllocation s, hNodup, entry, hEntry => by
      obtain ⟨hOwn, -⟩ := List.nodup_cons.mp hNodup
      rcases List.mem_cons.mp hEntry with rfl | hEntry
      · exact .inl rfl
      · obtain ⟨a, ha, rfl⟩ := List.mem_map.mp hEntry
        refine .inr ⟨_, rfl, fun hSame => hOwn ?_⟩
        rw [hSame]
        exact List.mem_map_of_mem ha
  | .select s, _, entry, hEntry => .inl (by rw [List.mem_singleton.mp hEntry])
  | .allocate s, _, entry, hEntry => .inl (by rw [List.mem_singleton.mp hEntry])
  | .transition id t, _, entry, hEntry => .inl (by rw [List.mem_singleton.mp hEntry])
  | .rememberValue s, _, entry, hEntry => .inl (by rw [List.mem_singleton.mp hEntry])
  | .unresolved s, _, entry, hEntry => .inl (by rw [List.mem_singleton.mp hEntry])

theorem enclosed_allApart (around : Option String) : ∀ statements : List ProgramStatement,
    (ProgramStatement.allStatementIds statements).Nodup →
    ∀ entry ∈ ProgramStatement.allEnclosed around statements,
      entry.2 = around ∨ ∃ id, entry.2 = some id ∧ id ≠ entry.1
  | [], _, entry, hEntry => absurd hEntry List.not_mem_nil
  | s :: rest, hNodup, entry, hEntry => by
      obtain ⟨hFirst, hRest, -⟩ := List.nodup_append'.mp hNodup
      rcases List.mem_append.mp hEntry with hEntry | hEntry
      · exact enclosed_apart around s hFirst entry hEntry
      · exact enclosed_allApart around rest hRest entry hEntry

end

theorem allStatementIds_sublist {kept statements : List ProgramStatement}
    (h : kept.Sublist statements) : (ProgramStatement.allStatementIds kept).Sublist
      (ProgramStatement.allStatementIds statements) := by
  induction h with
  | slnil => exact List.Sublist.refl _
  | cons s _ ih => exact ih.trans (List.sublist_append_right _ _)
  | cons_cons s _ ih => exact (List.Sublist.refl _).append ih

/-- Ids of the statements a Program shows. -/
theorem SemanticProgram.ids_enclosed_sublist (program : SemanticProgram) :
    (program.enclosed.map Prod.fst).Sublist
      (ProgramStatement.allStatementIds program.statements) := by
  rw [enclosed, ids_allEnclosed]
  exact allStatementIds_sublist List.filter_sublist

end Enclosed

end RuleTrade
