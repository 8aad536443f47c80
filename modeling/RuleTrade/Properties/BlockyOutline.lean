import RuleTrade.Strategy.Projections
import RuleTrade.Strategy.Identities

/-! What the outlines of conditions and values contain. Each node is told by the
addressed object it is drawn from, so two nodes of one address have children of
the same names wherever the identities of the document agree. -/

namespace RuleTrade

open Library

section Components

/-- Name of the item a document gets as a value. -/
def valueName : Json → List String
  | .object fields => (semanticIdOf fields).toList.map ("blocky:value:" ++ ·)
  | _ => []

def conditionName : Json → List String
  | .object fields => (semanticIdOf fields).toList.map ("blocky:condition:" ++ ·)
  | _ => []

def fieldItem (fields : List (String × Json)) (key : String) : List Json :=
  (fields.lookup key).toList

def arrayItems : Json → List Json
  | .array items => items
  | _ => []

def objectFields : Json → List (String × Json)
  | .object fields => fields
  | _ => []

/-- Values a value or a condition is made of. -/
def componentValues (fields : List (String × Json)) : List Json :=
  fieldItem fields "left" ++ fieldItem fields "right" ++ fieldItem fields "source" ++
    (fieldItem fields "operands").flatMap arrayItems ++
    ((fieldItem fields "terms").flatMap arrayItems).flatMap
      (fun term => fieldItem (objectFields term) "value")

def componentConditions (fields : List (String × Json)) : List Json :=
  fieldItem fields "child" ++ (fieldItem fields "children").flatMap arrayItems ++
    ((fieldItem fields "condition_terms").flatMap arrayItems).flatMap
      (fun term => fieldItem (objectFields term) "condition")

/-- Names of the items directly under an item, read off its document. -/
def componentNames (fields : List (String × Json)) : List String :=
  (componentValues fields).flatMap valueName ++ (componentConditions fields).flatMap conditionName

theorem fieldItem_filter (fields : List (String × Json)) {key : String} (h : key ≠ "semantic_id") :
    fieldItem (fields.filter (fun field => field.1 ≠ "semantic_id")) key = fieldItem fields key := by
  have hLookup : (fields.filter (fun field => field.1 ≠ "semantic_id")).lookup key =
      fields.lookup key := by
    induction fields with
    | nil => rfl
    | cons field rest ih =>
        by_cases hField : field.1 = "semantic_id"
        · have hKey : (key == field.1) = false := by
            rw [hField]
            exact beq_false_of_ne h
          rw [List.filter_cons_of_neg (by simpa using hField), ih, List.lookup_cons, hKey]
        · rw [List.filter_cons_of_pos (by simpa using hField), List.lookup_cons, List.lookup_cons,
            ih]
  rw [fieldItem, hLookup, fieldItem]

/-- The address itself is not a component. -/
theorem componentNames_filter (fields : List (String × Json)) :
    componentNames (fields.filter (fun field => field.1 ≠ "semantic_id")) =
      componentNames fields := by
  simp (disch := decide) only [componentNames, componentValues, componentConditions,
    fieldItem_filter]

theorem valueName_daily (node : DailyValueNode) :
    valueName node.document = ["blocky:value:" ++ node.semanticId] := by
  cases node <;> rfl

theorem valueName_document (value : ValueExpression) :
    valueName value.document = ["blocky:value:" ++ value.semanticId] := by
  cases value with
  | daily node => exact valueName_daily node
  | _ => rfl

theorem conditionName_document (condition : Condition) :
    conditionName condition.document = ["blocky:condition:" ++ condition.semanticId] := by
  cases condition <;> rfl

theorem termValues_documents (terms : List ScoreTerm) :
    (ValueExpression.termDocuments terms).flatMap (fun term => fieldItem (objectFields term) "value") =
      terms.map (fun term => term.value.document) := by
  induction terms with
  | nil => rfl
  | cons term rest ih =>
      obtain ⟨id, value, weight⟩ := term
      rw [ValueExpression.termDocuments, List.flatMap_cons, ih]
      rfl

theorem termConditions_documents (terms : List ConditionPointTerm) :
    (ValueExpression.conditionTermDocuments terms).flatMap
        (fun term => fieldItem (objectFields term) "condition") =
      terms.map (fun term => term.condition.document) := by
  induction terms with
  | nil => rfl
  | cons term rest ih =>
      obtain ⟨id, condition, truePoints, falsePoints, unknownPoints⟩ := term
      rw [ValueExpression.conditionTermDocuments, List.flatMap_cons, ih]
      rfl

end Components

section Blocks

/-- A block of a condition or a value is named by its address. -/
inductive BlockyBlock.Expression : BlockyBlock → Prop where
  | value (semanticId label path : String) (detail : Option String) :
      Expression (valueBlock semanticId label path detail)
  | condition (condition : Condition) (path : String) (detail : Option String) :
      Expression (conditionBlock condition path detail)

namespace BlockyBlock.Expression

variable {block other : BlockyBlock}

theorem isShared (h : block.Expression) : block.shared = true := by
  cases h <;> rfl

theorem text_ne {a b : String} : "blocky:value:" ++ a ≠ "blocky:condition:" ++ b := by
  intro h
  have hList := congrArg String.toList h
  simp [String.toList_append] at hList

/-- Expressions of one name have one kind and one semantic id. -/
theorem address_eq (h : block.Expression) (hOther : other.Expression) (hId : block.id = other.id) :
    block.address.kind = other.address.kind ∧
      block.address.semanticId = other.address.semanticId := by
  cases h <;> cases hOther
  · exact ⟨rfl, (String.append_right_inj _).mp hId⟩
  · exact absurd hId text_ne
  · exact absurd hId.symm text_ne
  · exact ⟨rfl, (String.append_right_inj _).mp hId⟩

theorem kind_ne (h : block.Expression) :
    block.address.kind ≠ .statement ∧ block.address.kind ≠ .strategy := by
  cases h
  · exact ⟨AddressKind.noConfusion, AddressKind.noConfusion⟩
  · exact ⟨AddressKind.noConfusion, AddressKind.noConfusion⟩

end BlockyBlock.Expression

end Blocks

section Tracing

/-- A node of an outline, drawn from an addressed object over other expressions. -/
structure Traced (objects : List (String × List (String × Json))) (n : Outline BlockyBlock) :
    Prop where
  expression : n.content.Expression
  content : ∃ fields, (n.content.address.semanticId, fields) ∈ objects ∧
    n.children.map (fun c => c.content.id) = componentNames fields
  below : ∀ c ∈ n.children, c.content.Expression

theorem Traced.mono {objects objects' : List (String × List (String × Json))}
    {n : Outline BlockyBlock} (h : Traced objects n) (hSubset : objects ⊆ objects') :
    Traced objects' n := by
  obtain ⟨hExpression, ⟨fields, hMem, hNames⟩, hBelow⟩ := h
  exact ⟨hExpression, ⟨fields, hSubset hMem, hNames⟩, hBelow⟩

section Nodes

variable {block : BlockyBlock} {children : List (Outline BlockyBlock)}
  {fields : List (String × Json)}

/-- A block is traced to its document when its children are named by the
components and are traced to documents under its own. -/
theorem traced_node (hExpression : block.Expression)
    (hId : semanticIdOf fields = some block.address.semanticId)
    (hNames : children.map (fun c => c.content.id) = componentNames fields)
    (hBelow : ∀ n ∈ Outline.allNodes children, Traced (addressedFields fields) n) :
    ∀ n ∈ (Outline.node block children).nodes, Traced (addressedObjects (.object fields)) n := by
  intro n hn
  rw [addressedObjects, hId]
  rw [← componentNames_filter] at hNames
  rcases List.mem_cons.mp hn with rfl | hn
  · refine ⟨hExpression, ⟨_, List.mem_append_left _ (List.mem_singleton_self _), hNames⟩, ?_⟩
    intro c hc
    exact (hBelow c (Outline.nodes_subset_allNodes hc (Outline.self_mem_nodes c))).expression
  · exact (hBelow n hn).mono (List.subset_append_right _ _)

theorem traced_field (key : String) {item : Json} {n : Outline BlockyBlock}
    (hField : (key, item) ∈ fields) (h : Traced (addressedObjects item) n) :
    Traced (addressedFields fields) n := by
  apply h.mono
  intro object hObject
  exact mem_addressedFields.mpr ⟨_, hField, hObject⟩

theorem id_dailyOutline (node : DailyValueNode) (path : String) (detail : Option String) :
    (dailyOutline node path detail).content.id = "blocky:value:" ++ node.semanticId := by
  cases node <;> rfl

theorem componentNames_eq (values conditions : List Json) (hValues : componentValues fields = values)
    (hConditions : componentConditions fields = conditions) :
    componentNames fields = values.flatMap valueName ++ conditions.flatMap conditionName := by
  rw [componentNames, hValues, hConditions]

/-- A daily node is traced when its operands are. -/
theorem traced_operands {attrs : NodeAttrs} {label path kind : String} {detail : Option String}
    (operands : List DailyValueNode) {parameters : List (String × Json)}
    {documentFields : List (String × Json)}
    (hDocument : nodeDocument attrs kind (operands.map DailyValueNode.document) parameters =
      .object documentFields)
    (hValues : componentValues documentFields = operands.map DailyValueNode.document)
    (hConditions : componentConditions documentFields = [])
    (hNames : children.map (fun c => c.content.id) =
      operands.map (fun operand => "blocky:value:" ++ operand.semanticId))
    (hBelow : ∀ n ∈ Outline.allNodes children, ∃ operand ∈ operands,
      Traced (addressedObjects operand.document) n) :
    ∀ n ∈ (Outline.node (valueBlock attrs.semanticId label path detail) children).nodes,
      Traced (addressedObjects (nodeDocument attrs kind (operands.map DailyValueNode.document)
        parameters)) n := by
  rw [hDocument]
  obtain rfl := Json.object.inj hDocument
  apply traced_node
  · exact .value _ _ _ _
  · rfl
  · rw [hNames, componentNames_eq _ _ hValues hConditions, List.flatMap_nil, List.append_nil,
      List.flatMap_map]
    simp only [valueName_daily]
    exact List.map_eq_flatMap
  · intro n hn
    obtain ⟨operand, hOperand, hTraced⟩ := hBelow n hn
    apply hTraced.mono
    apply List.Subset.trans (addressedObjects_item (List.mem_map_of_mem hOperand))
    intro object hObject
    exact mem_addressedFields.mpr ⟨("operands", .array _), by simp, hObject⟩

theorem traced_operand {attrs : NodeAttrs} {label path operandPath kind : String}
    {detail operandDetail : Option String} {operand : DailyValueNode}
    {parameters : List (String × Json)} {documentFields : List (String × Json)}
    (hDocument : nodeDocument attrs kind [operand.document] parameters = .object documentFields)
    (hValues : componentValues documentFields = [operand.document])
    (hConditions : componentConditions documentFields = [])
    (hBelow : ∀ n ∈ (dailyOutline operand operandPath operandDetail).nodes,
      Traced (addressedObjects operand.document) n) :
    ∀ n ∈ (Outline.node (valueBlock attrs.semanticId label path detail)
      [dailyOutline operand operandPath operandDetail]).nodes,
      Traced (addressedObjects (nodeDocument attrs kind [operand.document] parameters)) n := by
  apply traced_operands [operand] hDocument hValues hConditions
  · rw [List.map_singleton, id_dailyOutline]
    rfl
  · intro n hn
    rw [Outline.allNodes, Outline.allNodes, List.append_nil] at hn
    exact ⟨operand, List.mem_singleton_self _, hBelow n hn⟩

end Nodes

theorem traced_dailyOutline (node : DailyValueNode) (path : String) (detail : Option String) :
    ∀ n ∈ (dailyOutline node path detail).nodes, Traced (addressedObjects node.document) n := by
  induction node generalizing path detail with
  | literal attrs value quantity unit refinement =>
      exact traced_operands [] rfl rfl rfl rfl
        (fun n hn => absurd hn List.not_mem_nil)
  | observe attrs field basis =>
      exact traced_operands [] rfl rfl rfl rfl
        (fun n hn => absurd hn List.not_mem_nil)
  | current attrs operand ih => exact traced_operand rfl rfl rfl (ih _ _)
  | history attrs observations skip operand ih => exact traced_operand rfl rfl rfl (ih _ _)
  | indicator attrs kind observations skip operand ih => exact traced_operand rfl rfl rfl (ih _ _)
  | absolute attrs operand ih => exact traced_operand rfl rfl rfl (ih _ _)
  | reduce attrs axis reduction missingPolicy minimumCount minimumFraction operand ih =>
      exact traced_operand rfl rfl rfl (ih _ _)
  | arithmetic attrs operator left right ihLeft ihRight =>
      apply traced_operands [left, right] rfl rfl rfl
      · simp only [List.map_cons, List.map_nil, id_dailyOutline]
      · intro n hn
        simp only [Outline.allNodes, List.append_nil, List.mem_append] at hn
        rcases hn with hn | hn
        · exact ⟨left, by simp, ihLeft _ _ n hn⟩
        · exact ⟨right, by simp, ihRight _ _ n hn⟩

variable (decimalText : ℚ → String)

theorem id_valueOutline (value : ValueExpression) (path : String) (detail : Option String) :
    (valueOutline decimalText value path detail).content.id =
      "blocky:value:" ++ value.semanticId := by
  cases value with
  | daily node => exact id_dailyOutline node path detail
  | _ => rfl

theorem id_conditionOutline (condition : Condition) (path : String) (detail : Option String) :
    (conditionOutline decimalText condition path detail).content.id =
      "blocky:condition:" ++ condition.semanticId := by
  cases condition <;> rfl

theorem ids_termOutlines (terms : List ScoreTerm) (path : String) (index : Nat) :
    (termOutlines decimalText terms path index).map (fun c => c.content.id) =
      (terms.map (fun term => term.value.document)).flatMap valueName := by
  induction terms generalizing index with
  | nil => rfl
  | cons term rest ih =>
      obtain ⟨id, value, weight⟩ := term
      rw [termOutlines, List.map_cons, id_valueOutline, ih, List.map_cons, List.flatMap_cons]
      show _ = valueName value.document ++ _
      rw [valueName_document, List.singleton_append]

theorem ids_conditionTermOutlines (terms : List ConditionPointTerm) (path : String) (index : Nat) :
    (conditionTermOutlines decimalText terms path index).map (fun c => c.content.id) =
      (terms.map (fun term => term.condition.document)).flatMap conditionName := by
  induction terms generalizing index with
  | nil => rfl
  | cons term rest ih =>
      obtain ⟨id, condition, truePoints, falsePoints, unknownPoints⟩ := term
      rw [conditionTermOutlines, List.map_cons, id_conditionOutline, ih, List.map_cons,
        List.flatMap_cons]
      show _ = conditionName condition.document ++ _
      rw [conditionName_document, List.singleton_append]

theorem ids_childOutlines (children : List Condition) (path : String) (index : Nat) :
    (childOutlines decimalText children path index).map (fun c => c.content.id) =
      (Condition.documents children).flatMap conditionName := by
  induction children generalizing index with
  | nil => rfl
  | cons child rest ih =>
      rw [childOutlines, List.map_cons, id_conditionOutline, ih, Condition.documents,
        List.flatMap_cons, conditionName_document, List.singleton_append]

/-- A value with no components is traced to its document. -/
theorem traced_simple {id label path : String} {detail : Option String}
    {fields : List (String × Json)} (hId : semanticIdOf fields = some id)
    (hNames : componentNames fields = []) :
    ∀ n ∈ (Outline.node (valueBlock id label path detail) []).nodes,
      Traced (addressedObjects (.object fields)) n := by
  apply traced_node
  · exact .value _ _ _ _
  · exact hId
  · exact hNames.symm
  · intro n hn
    exact absurd hn List.not_mem_nil

/-- A value over one source is traced when its source is. -/
theorem traced_source {id label path : String} {detail : Option String} (source : Json)
    {fields : List (String × Json)} {t : Outline BlockyBlock}
    (hId : semanticIdOf fields = some id) (hField : ("source", source) ∈ fields)
    (hValues : componentValues fields = [source]) (hConditions : componentConditions fields = [])
    (hChild : [t.content.id] = valueName source)
    (hBelow : ∀ n ∈ t.nodes, Traced (addressedObjects source) n) :
    ∀ n ∈ (Outline.node (valueBlock id label path detail) [t]).nodes,
      Traced (addressedObjects (.object fields)) n := by
  apply traced_node
  · exact .value _ _ _ _
  · exact hId
  · rw [componentNames_eq _ _ hValues hConditions, List.flatMap_singleton, ← hChild]
    rfl
  · intro n hn
    rw [Outline.allNodes, Outline.allNodes, List.append_nil] at hn
    exact traced_field "source" hField (hBelow n hn)

mutual

theorem traced_valueOutline : ∀ (value : ValueExpression) (path : String) (detail : Option String),
    ∀ n ∈ (valueOutline decimalText value path detail).nodes,
      Traced (addressedObjects value.document) n
  | .daily node, path, detail => traced_dailyOutline node path detail
  | .score id terms conditionTerms policy, path, detail => by
      apply traced_node
      · exact .value _ _ _ _
      · rfl
      · rw [List.map_append, ids_termOutlines, ids_conditionTermOutlines, componentNames_eq
          ((ValueExpression.termDocuments terms ++ []).flatMap
            (fun term => fieldItem (objectFields term) "value"))
          ((ValueExpression.conditionTermDocuments conditionTerms ++ []).flatMap
            (fun term => fieldItem (objectFields term) "condition")) rfl rfl,
          List.append_nil, List.append_nil, termValues_documents, termConditions_documents]
      · intro n hn
        rw [Outline.allNodes_append] at hn
        rcases List.mem_append.mp hn with hn | hn
        · exact traced_field "terms" (by simp) (traced_termOutlines terms path 0 n hn)
        · exact traced_field "condition_terms" (by simp)
            (traced_conditionTermOutlines conditionTerms path 0 n hn)
  | .crossSectional id source domain transform direction bins, path, detail => by
      apply traced_source source.document rfl
      · simp
      · rfl
      · rfl
      · rw [id_valueOutline, valueName_document]
      · exact traced_valueOutline source _ _
  | .crossSectionalAggregate id source domain reduction coverage, path, detail => by
      apply traced_source source.document rfl
      · simp
      · rfl
      · rfl
      · rw [id_valueOutline, valueName_document]
      · exact traced_valueOutline source _ _
  | .eventRelative id event source offset, path, detail => by
      apply traced_source source.document rfl
      · simp
      · rfl
      · rfl
      · rw [id_dailyOutline, valueName_daily]
      · exact traced_dailyOutline source _ _
  | .clockedValue id source clock, path, detail => by
      apply traced_source source.document rfl
      · simp
      · rfl
      · rfl
      · rw [id_dailyOutline, valueName_daily]
      · exact traced_dailyOutline source _ _
  | .literal id value quantity unit refinement, path, detail => traced_simple rfl rfl
  | .candidateTrailingReturn id binding lookback clock, path, detail => traced_simple rfl rfl
  | .candidateCurrentPrice id binding clock, path, detail => traced_simple rfl rfl
  | .rememberedValue id memory quantity unit refinement, path, detail => traced_simple rfl rfl
  | .barsSinceEvent id event, path, detail => traced_simple rfl rfl
  | .barsSinceState id key, path, detail => traced_simple rfl rfl
  | .timeSinceEvent id event, path, detail => traced_simple rfl rfl
  | .timeSinceState id key, path, detail => traced_simple rfl rfl

theorem traced_termOutlines : ∀ (terms : List ScoreTerm) (path : String) (index : Nat),
    ∀ n ∈ Outline.allNodes (termOutlines decimalText terms path index),
      Traced (addressedObjects (.array (ValueExpression.termDocuments terms))) n
  | [], path, index, n, hn => absurd hn List.not_mem_nil
  | .mk id value weight :: rest, path, index, n, hn => by
      rcases List.mem_append.mp hn with hn | hn
      · apply Traced.mono (traced_valueOutline value _ _ n hn)
        apply List.Subset.trans _ (addressedObjects_item List.mem_cons_self)
        exact addressedObjects_field "value" (by simp)
      · apply Traced.mono (traced_termOutlines rest path (index + 1) n hn)
        exact List.subset_append_right _ _

theorem traced_conditionTermOutlines : ∀ (terms : List ConditionPointTerm) (path : String)
    (index : Nat), ∀ n ∈ Outline.allNodes (conditionTermOutlines decimalText terms path index),
      Traced (addressedObjects (.array (ValueExpression.conditionTermDocuments terms))) n
  | [], path, index, n, hn => absurd hn List.not_mem_nil
  | .mk id condition truePoints falsePoints unknownPoints :: rest, path, index, n, hn => by
      rcases List.mem_append.mp hn with hn | hn
      · apply Traced.mono (traced_conditionOutline condition _ _ n hn)
        apply List.Subset.trans _ (addressedObjects_item List.mem_cons_self)
        exact addressedObjects_field "condition" (by simp)
      · apply Traced.mono (traced_conditionTermOutlines rest path (index + 1) n hn)
        exact List.subset_append_right _ _

theorem traced_conditionOutline : ∀ (condition : Condition) (path : String)
    (detail : Option String), ∀ n ∈ (conditionOutline decimalText condition path detail).nodes,
      Traced (addressedObjects condition.document) n
  | .comparison id operator left right, path, detail => by
      apply traced_node
      · exact .condition _ _ _
      · rfl
      · rw [componentNames_eq [left.document, right.document] [] rfl rfl]
        simp [id_valueOutline, valueName_document]
      · intro n hn
        simp only [Outline.allNodes, List.append_nil, List.mem_append] at hn
        rcases hn with hn | hn
        · exact traced_field "left" (by simp) (traced_valueOutline left _ _ n hn)
        · exact traced_field "right" (by simp) (traced_valueOutline right _ _ n hn)
  | .booleanGroup id kind children, path, detail => by
      apply traced_node
      · exact .condition _ _ _
      · rfl
      · rw [ids_childOutlines, componentNames_eq [] (Condition.documents children ++ [] ++ []) rfl rfl]
        simp
      · intro n hn
        exact traced_field "children" (by simp) (traced_childOutlines children path 0 n hn)
  | .nOfM id minimumTrue children, path, detail => by
      apply traced_node
      · exact .condition _ _ _
      · rfl
      · rw [ids_childOutlines, componentNames_eq [] (Condition.documents children ++ [] ++ []) rfl rfl]
        simp
      · intro n hn
        exact traced_field "children" (by simp) (traced_childOutlines children path 0 n hn)
  | .not id child, path, detail => by
      apply traced_node
      · exact .condition _ _ _
      · rfl
      · rw [componentNames_eq [] [child.document] rfl rfl]
        simp [id_conditionOutline, conditionName_document]
      · intro n hn
        simp only [Outline.allNodes, List.append_nil] at hn
        exact traced_field "child" (by simp) (traced_conditionOutline child _ _ n hn)
  | .stateEquals id key expected, path, detail => by
      apply traced_node
      · exact .condition _ _ _
      · rfl
      · rfl
      · intro n hn
        exact absurd hn List.not_mem_nil
  | .eventWindow id event relation, path, detail => by
      apply traced_node
      · exact .condition _ _ _
      · rfl
      · rfl
      · intro n hn
        exact absurd hn List.not_mem_nil

theorem traced_childOutlines : ∀ (children : List Condition) (path : String) (index : Nat),
    ∀ n ∈ Outline.allNodes (childOutlines decimalText children path index),
      Traced (addressedObjects (.array (Condition.documents children))) n
  | [], path, index, n, hn => absurd hn List.not_mem_nil
  | child :: rest, path, index, n, hn => by
      rcases List.mem_append.mp hn with hn | hn
      · apply Traced.mono (traced_conditionOutline child _ _ n hn)
        exact addressedObjects_item List.mem_cons_self
      · apply Traced.mono (traced_childOutlines rest path (index + 1) n hn)
        exact List.subset_append_right _ _

end

end Tracing

end RuleTrade
