import RuleTrade.Strategy.DailyEvaluator
import RuleTrade.Strategy.DailySoundness

/-! Memoization is transparent. A result depends on the node up to addresses, on
the binder, and on the candidate only where the node uses one, which is what the
memo stores it under. -/

namespace RuleTrade

open Library Library.Memo

section Content

/-- The node without its addresses. -/
def NodeAttrs.bare (attrs : NodeAttrs) : NodeAttrs := { attrs with semanticId := "" }

@[simp] def DailyValueNode.bare : DailyValueNode → DailyValueNode
  | .literal a v q u r => .literal a.bare v q u r
  | .observe a f b => .observe a.bare f b
  | .current a x => .current a.bare x.bare
  | .history a n k x => .history a.bare n k x.bare
  | .indicator a i n k x => .indicator a.bare i n k x.bare
  | .absolute a x => .absolute a.bare x.bare
  | .reduce a axis op policy count fraction x =>
      .reduce a.bare axis op policy count fraction x.bare
  | .arithmetic a op l r => .arithmetic a.bare op l.bare r.bare

/-- Content of a node from its kind, its operands and its parameters. -/
theorem withoutAddresses_nodeDocument (attrs : NodeAttrs) (kind : String) (operands : List Json)
    (parameters : List (String × Json)) :
    withoutAddresses (nodeDocument attrs kind operands parameters) =
      .object ([("kind", .text kind), ("operands", .array (itemsWithoutAddresses operands)),
        ("subject_kind", optional (fun k => .text k.text) attrs.subjectKind),
        ("subject_id", optional .text attrs.subjectId),
        ("binding_id", optional .text attrs.bindingId)] ++ fieldsWithoutAddresses parameters) := by
  obtain ⟨id, subjectKind, subjectId, bindingId⟩ := attrs
  cases subjectKind <;> cases subjectId <;> cases bindingId <;>
    simp [nodeDocument, withoutAddresses, fieldsWithoutAddresses, optional]

theorem optional_text_injective : Function.Injective (optional Json.text) := by
  intro x y h
  cases x <;> cases y <;> simp_all [optional]

theorem SubjectKind.text_injective : Function.Injective SubjectKind.text := by
  intro x y h
  cases x <;> cases y <;> first | rfl | exact absurd h (by decide)

theorem Quantity.text_injective : Function.Injective Quantity.text := by
  intro x y h
  cases x <;> cases y <;> first | rfl | exact absurd h (by decide)

theorem Unit.text_injective : Function.Injective Unit.text := by
  intro x y h
  cases x <;> cases y <;> first | rfl | exact absurd h (by decide)

theorem MarketField.text_injective : Function.Injective MarketField.text := by
  intro x y h
  cases x <;> cases y <;> first | rfl | exact absurd h (by decide)

theorem PriceBasis.text_injective : Function.Injective PriceBasis.text := by
  intro x y h
  cases x <;> cases y <;> first | rfl | exact absurd h (by decide)

theorem IndicatorKind.text_injective : Function.Injective IndicatorKind.text := by
  intro x y h
  cases x <;> cases y <;> first | rfl | exact absurd h (by decide)

theorem AxisName.text_injective : Function.Injective AxisName.text := by
  intro x y h
  cases x <;> cases y <;> first | rfl | exact absurd h (by decide)

theorem ReductionOperation.text_injective : Function.Injective ReductionOperation.text := by
  intro x y h
  cases x <;> cases y <;> first | rfl | exact absurd h (by decide)

theorem MissingPolicy.text_injective : Function.Injective MissingPolicy.text := by
  intro x y h
  cases x <;> cases y <;> first | rfl | exact absurd h (by decide)

theorem ArithmeticOperator.text_injective : Function.Injective ArithmeticOperator.text := by
  intro x y h
  cases x <;> cases y <;> first | rfl | exact absurd h (by decide)

theorem subjectKind_injective :
    Function.Injective (optional (fun k : SubjectKind => Json.text k.text)) := by
  intro x y h
  cases x <;> cases y <;> simp_all [optional, SubjectKind.text_injective.eq_iff]

/-- Equal contents have equal kinds, subjects, operands and parameters. -/
theorem nodeDocument_inj {a a' : NodeAttrs} {kind kind' : String} {operands operands' : List Json}
    {parameters parameters' : List (String × Json)}
    (h : withoutAddresses (nodeDocument a kind operands parameters) =
      withoutAddresses (nodeDocument a' kind' operands' parameters')) :
    a.bare = a'.bare ∧ kind = kind' ∧
      itemsWithoutAddresses operands = itemsWithoutAddresses operands' ∧
      fieldsWithoutAddresses parameters = fieldsWithoutAddresses parameters' := by
  simp only [withoutAddresses_nodeDocument, Json.object.injEq, List.cons_append, List.nil_append,
    List.cons.injEq, Prod.mk.injEq, true_and, Json.text.injEq, Json.array.injEq] at h
  obtain ⟨hKind, hOperands, hSubject, hId, hBinding, hParameters⟩ := h
  refine ⟨?_, hKind, hOperands, hParameters⟩
  simp only [NodeAttrs.bare, subjectKind_injective hSubject, optional_text_injective hId,
    optional_text_injective hBinding]

/-- Kinds of indicators are no other kinds. -/
theorem IndicatorKind.text_ne (kind : IndicatorKind) : kind.text ∉ ["literal", "observe", "current",
    "history", "absolute", "reduce", "arithmetic"] := by
  cases kind <;> decide

theorem indicator_content_ne {a a' : NodeAttrs} (kind : IndicatorKind) {name : String}
    {operands operands' : List Json} {parameters parameters' : List (String × Json)}
    (hName : name ∈ ["literal", "observe", "current", "history", "absolute", "reduce", "arithmetic"])
    (h : withoutAddresses (nodeDocument a name operands parameters) =
      withoutAddresses (nodeDocument a' kind.text operands' parameters')) : False := by
  apply kind.text_ne
  rwa [← (nodeDocument_inj h).2.1]

/-- Nodes of one content differ in addresses only. -/
theorem bare_eq_of_contentHash {node other : DailyValueNode}
    (h : node.contentHash = other.contentHash) : node.bare = other.bare := by
  unfold DailyValueNode.contentHash semanticContentHash at h
  induction node generalizing other with
  | literal a v q u r =>
      cases other with
      | literal a' v' q' u' r' =>
          obtain ⟨hAttrs, -, -, hParameters⟩ := nodeDocument_inj h
          cases r <;> cases r' <;>
            simp_all [fieldsWithoutAddresses, withoutAddresses, optional, DailyValueNode.bare,
              Quantity.text_injective.eq_iff, Unit.text_injective.eq_iff]
      | indicator a' kind n k x => exact (indicator_content_ne kind (by decide) h).elim
      | _ => exact absurd (nodeDocument_inj h).2.1 (by decide)
  | observe a f b =>
      cases other with
      | observe a' f' b' =>
          obtain ⟨hAttrs, -, -, hParameters⟩ := nodeDocument_inj h
          simp_all [fieldsWithoutAddresses, withoutAddresses, DailyValueNode.bare,
            MarketField.text_injective.eq_iff, PriceBasis.text_injective.eq_iff]
      | indicator a' kind n k x => exact (indicator_content_ne kind (by decide) h).elim
      | _ => exact absurd (nodeDocument_inj h).2.1 (by decide)
  | current a x ih =>
      cases other with
      | current a' x' =>
          obtain ⟨hAttrs, -, hOperands, -⟩ := nodeDocument_inj h
          simp only [itemsWithoutAddresses, List.cons.injEq, and_true] at hOperands
          simp only [DailyValueNode.bare, hAttrs, ih hOperands]
      | indicator a' kind n k x' => exact (indicator_content_ne kind (by decide) h).elim
      | _ => exact absurd (nodeDocument_inj h).2.1 (by decide)
  | history a n k x ih =>
      cases other with
      | history a' n' k' x' =>
          obtain ⟨hAttrs, -, hOperands, hParameters⟩ := nodeDocument_inj h
          simp only [itemsWithoutAddresses, List.cons.injEq, and_true] at hOperands
          have hBare := ih hOperands
          simp_all [fieldsWithoutAddresses, withoutAddresses, natural, DailyValueNode.bare]
      | indicator a' kind n' k' x' => exact (indicator_content_ne kind (by decide) h).elim
      | _ => exact absurd (nodeDocument_inj h).2.1 (by decide)
  | indicator a i n k x ih =>
      cases other with
      | indicator a' i' n' k' x' =>
          obtain ⟨hAttrs, hKind, hOperands, hParameters⟩ := nodeDocument_inj h
          simp only [itemsWithoutAddresses, List.cons.injEq, and_true] at hOperands
          have hBare := ih hOperands
          simp_all [fieldsWithoutAddresses, withoutAddresses, natural, DailyValueNode.bare,
            IndicatorKind.text_injective.eq_iff]
      | _ => exact (indicator_content_ne i (by decide) h.symm).elim
  | absolute a x ih =>
      cases other with
      | absolute a' x' =>
          obtain ⟨hAttrs, -, hOperands, -⟩ := nodeDocument_inj h
          simp only [itemsWithoutAddresses, List.cons.injEq, and_true] at hOperands
          simp only [DailyValueNode.bare, hAttrs, ih hOperands]
      | indicator a' kind n k x' => exact (indicator_content_ne kind (by decide) h).elim
      | _ => exact absurd (nodeDocument_inj h).2.1 (by decide)
  | reduce a axis op policy count fraction x ih =>
      cases other with
      | reduce a' axis' op' policy' count' fraction' x' =>
          obtain ⟨hAttrs, -, hOperands, hParameters⟩ := nodeDocument_inj h
          simp only [itemsWithoutAddresses, List.cons.injEq, and_true] at hOperands
          have hBare := ih hOperands
          simp_all [fieldsWithoutAddresses, withoutAddresses, natural, DailyValueNode.bare,
            AxisName.text_injective.eq_iff, ReductionOperation.text_injective.eq_iff,
            MissingPolicy.text_injective.eq_iff]
      | indicator a' kind n k x' => exact (indicator_content_ne kind (by decide) h).elim
      | _ => exact absurd (nodeDocument_inj h).2.1 (by decide)
  | arithmetic a op l r ihLeft ihRight =>
      cases other with
      | arithmetic a' op' l' r' =>
          obtain ⟨hAttrs, -, hOperands, hParameters⟩ := nodeDocument_inj h
          simp only [itemsWithoutAddresses, List.cons.injEq, and_true] at hOperands
          have hLeft := ihLeft hOperands.1
          have hRight := ihRight hOperands.2
          simp_all [fieldsWithoutAddresses, withoutAddresses, DailyValueNode.bare,
            ArithmeticOperator.text_injective.eq_iff]
      | indicator a' kind n k x' => exact (indicator_content_ne kind (by decide) h).elim
      | _ => exact absurd (nodeDocument_inj h).2.1 (by decide)

end Content

section Bare

variable {ctx : DecimalContext} {view : DailyView} {candidate bindingId : Option String}

theorem inferDailyType_bare (node : DailyValueNode) :
    inferDailyType bindingId node.bare = inferDailyType bindingId node := by
  induction node with
  | literal | observe => rfl
  | current a x ih | absolute a x ih | history a n k x ih | indicator a i n k x ih
  | reduce a axis op policy count fraction x ih =>
      simp only [DailyValueNode.bare, inferDailyType, ih]
  | arithmetic a op l r ihLeft ihRight =>
      simp only [DailyValueNode.bare, inferDailyType, ihLeft, ihRight]

theorem typed_bare (node : DailyValueNode) : typed bindingId node.bare = typed bindingId node := by
  simp only [typed, inferDailyType_bare]

theorem stream_bare (symbol : String) (node : DailyValueNode) :
    stream ctx view symbol node.bare = stream ctx view symbol node := by
  induction node with
  | indicator a i n k x ih | absolute a x ih => simp only [DailyValueNode.bare, stream, ih]
  | _ => rfl

theorem sourceObserve_bare (node : DailyValueNode) :
    sourceObserve node.bare = (sourceObserve node).map NodeAttrs.bare := by
  induction node with
  | indicator a i n k x ih | absolute a x ih => simp only [DailyValueNode.bare, sourceObserve, ih]
  | _ => rfl

theorem currentCells_bare (node : DailyValueNode) (missing : String) (symbols : List String) :
    currentCells ctx view node.bare missing symbols = currentCells ctx view node missing symbols := by
  simp only [currentCells, stream_bare]

theorem evaluateCurrent_bare (node : DailyValueNode) (attrs : NodeAttrs) (missing : String)
    (inferred : SemanticType) :
    evaluateCurrent ctx view node.bare attrs.bare missing inferred candidate =
      evaluateCurrent ctx view node attrs missing inferred candidate := by
  simp only [evaluateCurrent, currentCells_bare]
  rfl

theorem evaluateHistory_bare (source : DailyValueNode) (observations skip : Nat)
    (inferred : SemanticType) :
    evaluateHistory ctx view source.bare observations skip inferred candidate =
      evaluateHistory ctx view source observations skip inferred candidate := by
  simp only [evaluateHistory, sourceObserve_bare, stream_bare]
  cases sourceObserve source with
  | error e => rfl
  | ok attrs => rfl

/-- Evaluation reads no address. -/
theorem evaluate_bare (node : DailyValueNode) :
    evaluate ctx view candidate bindingId node.bare =
      evaluate ctx view candidate bindingId node := by
  induction node with
  | literal | observe => rfl
  | current a x ih =>
      have hTyped : typed bindingId (.current a.bare x.bare) = typed bindingId (.current a x) :=
        typed_bare (.current a x)
      simp only [DailyValueNode.bare, evaluate, hTyped, ih]
  | absolute a x ih =>
      have hTyped : typed bindingId (.absolute a.bare x.bare) = typed bindingId (.absolute a x) :=
        typed_bare (.absolute a x)
      simp only [DailyValueNode.bare, evaluate, hTyped, ih]
  | reduce a axis op policy count fraction x ih =>
      have hTyped : typed bindingId (.reduce a.bare axis op policy count fraction x.bare) =
          typed bindingId (.reduce a axis op policy count fraction x) :=
        typed_bare (.reduce a axis op policy count fraction x)
      simp only [DailyValueNode.bare, evaluate, hTyped, ih]
  | history a n k x ih =>
      have hTyped : typed bindingId (.history a.bare n k x.bare) =
          typed bindingId (.history a n k x) := typed_bare (.history a n k x)
      simp only [DailyValueNode.bare, evaluate, hTyped, evaluateHistory_bare]
  | indicator a i n k x ih =>
      have hTyped : typed bindingId (.indicator a.bare i n k x.bare) =
          typed bindingId (.indicator a i n k x) := typed_bare (.indicator a i n k x)
      have hSource := sourceObserve_bare (.indicator a i n k x)
      simp only [DailyValueNode.bare] at hSource
      simp only [DailyValueNode.bare, evaluate, hTyped, hSource]
      cases sourceObserve (.indicator a i n k x) with
      | error e => rfl
      | ok attrs => simp only [Except.map, ← evaluateCurrent_bare (.indicator a i n k x) attrs,
          DailyValueNode.bare, except_ok_bind]
  | arithmetic a op l r ihLeft ihRight =>
      have hTyped : typed bindingId (.arithmetic a.bare op l.bare r.bare) =
          typed bindingId (.arithmetic a op l r) := typed_bare (.arithmetic a op l r)
      simp only [DailyValueNode.bare, evaluate, hTyped, ihLeft, ihRight]

theorem usesCandidate_bare (node : DailyValueNode) :
    node.bare.usesCandidate = node.usesCandidate := by
  induction node with
  | literal | observe => rfl
  | current a x ih | history a n k x ih | indicator a i n k x ih | absolute a x ih
  | reduce a axis op policy count fraction x ih =>
      simp only [DailyValueNode.bare, DailyValueNode.usesCandidate, NodeAttrs.bare, ih]
  | arithmetic a op l r ihLeft ihRight =>
      simp only [DailyValueNode.bare, DailyValueNode.usesCandidate, NodeAttrs.bare, ihLeft, ihRight]

end Bare

section Candidate

variable {ctx : DecimalContext} {view : DailyView} {bindingId : Option String}

theorem observedSymbols_candidate {attrs : NodeAttrs} (h : attrs.subjectKind ≠ some .candidate)
    (c c' : Option String) : observedSymbols view attrs c = observedSymbols view attrs c' := by
  unfold observedSymbols
  split
  · rfl
  · exact absurd ‹_› h
  · rfl

theorem evaluateCurrent_candidate {node : DailyValueNode} {attrs : NodeAttrs} {missing : String}
    {inferred : SemanticType} (h : attrs.subjectKind ≠ some .candidate) (c c' : Option String) :
    evaluateCurrent ctx view node attrs missing inferred c =
      evaluateCurrent ctx view node attrs missing inferred c' := by
  simp only [evaluateCurrent, observedSymbols_candidate h c c']

/-- The observation under a stream uses the candidate only if the stream does. -/
theorem sourceObserve_usesCandidate {node : DailyValueNode} {attrs : NodeAttrs}
    (hSource : sourceObserve node = .ok attrs) (h : node.usesCandidate = false) :
    attrs.subjectKind ≠ some .candidate := by
  induction node with
  | observe a f b =>
      cases hSource
      simpa [DailyValueNode.usesCandidate] using h
  | indicator a i n k x ih | absolute a x ih =>
      simp only [DailyValueNode.usesCandidate, Bool.or_eq_false_iff] at h
      exact ih hSource h.2
  | _ => cases hSource

theorem evaluateHistory_candidate {source : DailyValueNode} {observations skip : Nat}
    {inferred : SemanticType} (h : source.usesCandidate = false) (c c' : Option String) :
    evaluateHistory ctx view source observations skip inferred c =
      evaluateHistory ctx view source observations skip inferred c' := by
  unfold evaluateHistory
  cases hSource : sourceObserve source with
  | error e => rfl
  | ok attrs =>
      simp only [except_ok_bind,
        observedSymbols_candidate (sourceObserve_usesCandidate hSource h) c c']

/-- A node that uses no candidate evaluates alike under every one. -/
theorem evaluate_candidate {node : DailyValueNode} (h : node.usesCandidate = false)
    (c c' : Option String) :
    evaluate ctx view c bindingId node = evaluate ctx view c' bindingId node := by
  induction node with
  | literal => rfl
  | observe a f b =>
      simp only [evaluate,
        evaluateCurrent_candidate (sourceObserve_usesCandidate rfl h : a.subjectKind ≠ _) c c']
  | indicator a i n k x ih =>
      simp only [evaluate]
      cases hSource : sourceObserve (.indicator a i n k x) with
      | error e => rfl
      | ok attrs =>
          simp only [except_ok_bind,
            evaluateCurrent_candidate (sourceObserve_usesCandidate hSource h) c c']
  | current a x ih | absolute a x ih | reduce a axis op policy count fraction x ih =>
      simp only [DailyValueNode.usesCandidate, Bool.or_eq_false_iff] at h
      simp only [evaluate, ih h.2]
  | history a n k x ih =>
      simp only [DailyValueNode.usesCandidate, Bool.or_eq_false_iff] at h
      simp only [evaluate, evaluateHistory_candidate h.2 c c']
  | arithmetic a op l r ihLeft ihRight =>
      simp only [DailyValueNode.usesCandidate, Bool.or_eq_false_iff] at h
      simp only [evaluate, ihLeft h.1.2, ihRight h.2]

end Candidate

section Observes

variable {ctx : DecimalContext} {view : DailyView} {candidate bindingId : Option String}

theorem observes_of_sourceObserve {node : DailyValueNode} {attrs : NodeAttrs}
    (h : sourceObserve node = .ok attrs) : node.observes = [attrs] := by
  induction node with
  | observe a f b =>
      cases h
      rfl
  | indicator a i n k x ih | absolute a x ih => exact ih h
  | _ => cases h

theorem observedSymbols_of_evaluateCurrent {node : DailyValueNode} {attrs : NodeAttrs}
    {missing : String} {inferred : SemanticType} {result : DailyValueResult}
    (h : evaluateCurrent ctx view node attrs missing inferred candidate = .ok result) :
    ∃ symbols, observedSymbols view attrs candidate = .ok symbols := by
  obtain ⟨symbols, hSymbols, -⟩ := except_bind_ok.mp h
  exact ⟨symbols, hSymbols⟩

/-- A node that evaluates has found the symbols of all its observations. -/
theorem observedSymbols_of_evaluate {node : DailyValueNode} {result : DailyValueResult}
    (h : evaluate ctx view candidate bindingId node = .ok result) :
    ∀ attrs ∈ node.observes, ∃ symbols, observedSymbols view attrs candidate = .ok symbols := by
  induction node generalizing result with
  | literal a v q u r =>
      intro attrs hMem
      cases hMem
  | observe a f b =>
      obtain ⟨inferred, -, hCurrent⟩ := except_bind_ok.mp h
      intro attrs hMem
      obtain rfl := List.mem_singleton.mp hMem
      exact observedSymbols_of_evaluateCurrent hCurrent
  | indicator a i n k x ih =>
      obtain ⟨inferred, -, hRest⟩ := except_bind_ok.mp h
      obtain ⟨source, hSource, hCurrent⟩ := except_bind_ok.mp hRest
      intro attrs hMem
      rw [observes_of_sourceObserve hSource, List.mem_singleton] at hMem
      subst hMem
      exact observedSymbols_of_evaluateCurrent hCurrent
  | history a n k x ih =>
      obtain ⟨inferred, -, hHistory⟩ := except_bind_ok.mp h
      obtain ⟨source, hSource, hRest⟩ := except_bind_ok.mp hHistory
      obtain ⟨symbols, hSymbols, -⟩ := except_bind_ok.mp hRest
      intro attrs hMem
      rw [DailyValueNode.observes, observes_of_sourceObserve hSource, List.mem_singleton] at hMem
      subst hMem
      exact ⟨symbols, hSymbols⟩
  | current a x ih =>
      obtain ⟨inferred, -, hOperand⟩ := except_bind_ok.mp h
      exact ih hOperand
  | absolute a x ih | reduce a axis op policy count fraction x ih =>
      obtain ⟨inferred, -, hRest⟩ := except_bind_ok.mp h
      obtain ⟨source, hOperand, -⟩ := except_bind_ok.mp hRest
      exact ih hOperand
  | arithmetic a op l r ihLeft ihRight =>
      obtain ⟨inferred, -, hRest⟩ := except_bind_ok.mp h
      obtain ⟨left, hLeft, hRest⟩ := except_bind_ok.mp hRest
      obtain ⟨right, hRight, -⟩ := except_bind_ok.mp hRest
      intro attrs hMem
      rcases List.mem_append.mp hMem with hMem | hMem
      · exact ihLeft hLeft attrs hMem
      · exact ihRight hRight attrs hMem

end Observes

namespace DailyValueEvaluator

open Stored

variable {evaluator : DailyValueEvaluator}

/-- What a fresh evaluator with the same snapshot and cutoff computes. -/
def fresh (evaluator : DailyValueEvaluator) (candidate bindingId : Option String)
    (node : DailyValueNode) : Except DailyValueError DailyValueResult :=
  RuleTrade.evaluate evaluator.context evaluator.view candidate bindingId node

/-- Every stored result is the one its node, candidate and binder evaluate to. -/
def Sound (evaluator : DailyValueEvaluator) (s : EvaluatorState) : Prop :=
  ∀ node candidate bindingId entry,
    s.memo.get? (evaluator.key node candidate bindingId) = some entry →
      evaluator.fresh candidate bindingId node = .ok entry.result

/-- Nodes under one key evaluate alike. -/
theorem fresh_of_key {node node' : DailyValueNode} {candidate candidate' bindingId : Option String}
    {bindingId' : Option String}
    (h : evaluator.key node candidate bindingId = evaluator.key node' candidate' bindingId') :
    evaluator.fresh candidate bindingId node = evaluator.fresh candidate' bindingId' node' := by
  simp only [key, MemoKey.mk.injEq] at h
  obtain ⟨-, -, -, hContent, hCandidate, rfl⟩ := h
  have hBare := bare_eq_of_contentHash hContent
  have hUses : node.usesCandidate = node'.usesCandidate := by
    rw [← usesCandidate_bare node, hBare, usesCandidate_bare]
  simp only [fresh]
  calc RuleTrade.evaluate evaluator.context evaluator.view candidate bindingId node
      = RuleTrade.evaluate evaluator.context evaluator.view candidate' bindingId node := by
        cases hNode : node.usesCandidate with
        | false => exact evaluate_candidate hNode candidate candidate'
        | true =>
            rw [← hUses, hNode, if_pos rfl, if_pos rfl] at hCandidate
            rw [hCandidate]
    _ = RuleTrade.evaluate evaluator.context evaluator.view candidate' bindingId node' := by
        rw [← evaluate_bare node, hBare, evaluate_bare]

theorem sound_empty : evaluator.Sound {} := by
  intro node candidate bindingId entry hStored
  cases hStored

theorem sound_countEvaluation {s : EvaluatorState} (node : DailyValueNode)
    (h : evaluator.Sound s) : evaluator.Sound (countEvaluation node s) := h

theorem sound_store {s : EvaluatorState} {node : DailyValueNode}
    {candidate bindingId : Option String} {entry : MemoEntry} (h : evaluator.Sound s)
    (hEntry : evaluator.fresh candidate bindingId node = .ok entry.result) :
    evaluator.Sound (store (evaluator.key node candidate bindingId) entry s) := by
  intro node' candidate' bindingId' entry' hStored
  simp only [store, Dict.get?_set] at hStored
  split_ifs at hStored with hKey
  · cases hStored
    rw [← hEntry]
    exact fresh_of_key hKey
  · exact h node' candidate' bindingId' entry' hStored

theorem buildProvenance_of_fresh {node : DailyValueNode} {candidate bindingId : Option String}
    {result : DailyValueResult} (h : evaluator.fresh candidate bindingId node = .ok result) :
    evaluator.buildProvenance node candidate = .ok node.addresses.eraseDups := by
  obtain ⟨symbols, hSymbols⟩ := Sequence.exists_ok_mapM (observedSymbols_of_evaluate h)
  rw [buildProvenance, hSymbols, except_ok_bind]

/-- A memoized answer is the fresh one when the body's is. -/
theorem answers_memoized {node : DailyValueNode} {candidate bindingId : Option String}
    {body : Evaluated}
    (h : Answers evaluator.Sound (evaluator.fresh candidate bindingId node) body) :
    Answers evaluator.Sound (evaluator.fresh candidate bindingId node)
      (evaluator.memoized node candidate bindingId body) := by
  have hMiss : Answers evaluator.Sound (evaluator.fresh candidate bindingId node)
      (do
        Stored.modify (countEvaluation node)
        let result ← body
        let semanticIds ← Stored.lift (evaluator.buildProvenance node candidate)
        Stored.modify (store (evaluator.key node candidate bindingId) ⟨result, semanticIds⟩)
        pure result : Evaluated) := by
    have hCount : Answers evaluator.Sound (.ok ⟨⟩ : Except DailyValueError PUnit)
        (Stored.modify (countEvaluation node)) :=
      answers_modify (fun s => sound_countEvaluation node)
    have hStore : ∀ result, evaluator.fresh candidate bindingId node = .ok result →
        ∀ semanticIds, Answers evaluator.Sound (.ok ⟨⟩ : Except DailyValueError PUnit)
          (Stored.modify (store (evaluator.key node candidate bindingId) ⟨result, semanticIds⟩)) :=
      fun result hResult semanticIds => answers_modify (fun s hSound => sound_store hSound hResult)
    have hProvenance : ∀ result, evaluator.fresh candidate bindingId node = .ok result →
        Answers evaluator.Sound (.ok node.addresses.eraseDups)
          (Stored.lift (evaluator.buildProvenance node candidate)) := by
      intro result hResult
      rw [buildProvenance_of_fresh hResult]
      exact answers_lift _
    have hSequence := answers_bind hCount (fun _ _ => answers_bind h (fun result hResult =>
      answers_bind (hProvenance result hResult) (fun semanticIds _ =>
        answers_bind (hStore result hResult semanticIds) (fun _ _ => answers_pure result))))
    cases hFresh : evaluator.fresh candidate bindingId node with
    | error e => rwa [hFresh] at hSequence
    | ok result => rwa [hFresh] at hSequence
  intro s hSound
  simp only [memoized]
  split
  · rename_i entry hStored
    have hEntry := hSound node candidate bindingId entry hStored
    split_ifs
    · exact ⟨hEntry.symm, hSound⟩
    · exact ⟨hEntry.symm, sound_store hSound hEntry⟩
  · exact hMiss s hSound

/-- Evaluation through the memo answers as a fresh evaluator does. -/
theorem answers_evaluate (candidate bindingId : Option String) (node : DailyValueNode) :
    Answers evaluator.Sound (evaluator.fresh candidate bindingId node)
      (evaluator.evaluate candidate bindingId node) := by
  induction node with
  | literal | observe | indicator | history => exact answers_memoized (answers_lift _)
  | current a x ih =>
      exact answers_memoized (answers_bind (answers_lift _) (fun _ _ => ih))
  | absolute a x ih =>
      exact answers_memoized (answers_bind (answers_lift _) (fun inferred _ =>
        answers_bind ih (fun source _ => answers_pure _)))
  | reduce a axis op policy count fraction x ih =>
      exact answers_memoized (answers_bind (answers_lift _) (fun inferred _ =>
        answers_bind ih (fun source _ => answers_lift _)))
  | arithmetic a op l r ihLeft ihRight =>
      exact answers_memoized (answers_bind (answers_lift _) (fun inferred _ =>
        answers_bind ihLeft (fun left _ => answers_bind ihRight (fun right _ => answers_lift _))))

end DailyValueEvaluator

/-- A call of an evaluator. -/
structure EvaluateCall where
  node : DailyValueNode
  candidate : Option String
  bindingId : Option String

def EvaluateCall.run (call : EvaluateCall) (evaluator : DailyValueEvaluator) :
    DailyValueEvaluator.Evaluated :=
  evaluator.evaluate call.candidate call.bindingId call.node

/-- Every call of one evaluator, whatever it was asked before, returns or fails
as the same call of a new evaluator with the same snapshot and cutoff. -/
theorem memoization_transparent (evaluator : DailyValueEvaluator) (calls : List EvaluateCall) :
    serve (fun call => call.run evaluator) calls {} =
      calls.map (fun call => (call.run evaluator {}).1) := by
  have hAnswers : ∀ call : EvaluateCall, Stored.Answers evaluator.Sound
      (evaluator.fresh call.candidate call.bindingId call.node) (call.run evaluator) :=
    fun call => DailyValueEvaluator.answers_evaluate call.candidate call.bindingId call.node
  have hFresh : (fun call : EvaluateCall => (call.run evaluator {}).1) =
      fun call => evaluator.fresh call.candidate call.bindingId call.node := by
    funext call
    exact (hAnswers call {} DailyValueEvaluator.sound_empty).1
  rw [hFresh]
  exact serve_eq hAnswers calls DailyValueEvaluator.sound_empty

end RuleTrade
