import RuleTrade.Library.Memo
import RuleTrade.Strategy.DailyValues
import RuleTrade.Strategy.Documents

/-! The reference evaluator with its memo. Results are stored under the content
of the node, so expressions that differ in their addresses only share one. -/

namespace RuleTrade

open Library Library.Memo

namespace DailyValueNode

/-- Addresses of the node and of everything under it. -/
def addresses : DailyValueNode → List String
  | .arithmetic a _ l r => a.semanticId :: (l.addresses ++ r.addresses)
  | .current a x | .history a _ _ x | .indicator a _ _ _ x | .absolute a x
  | .reduce a _ _ _ _ _ x => a.semanticId :: x.addresses
  | .literal a _ _ _ _ | .observe a _ _ => [a.semanticId]

/-- Observations under the node. -/
def observes : DailyValueNode → List NodeAttrs
  | .arithmetic _ _ l r => l.observes ++ r.observes
  | .current _ x | .history _ _ _ x | .indicator _ _ _ _ x | .absolute _ x
  | .reduce _ _ _ _ _ _ x => x.observes
  | .literal _ _ _ _ _ => []
  | .observe a _ _ => [a]

def usesCandidate : DailyValueNode → Bool
  | .arithmetic a _ l r =>
      a.subjectKind = some .candidate || l.usesCandidate || r.usesCandidate
  | .current a x | .history a _ _ x | .indicator a _ _ _ x | .absolute a x
  | .reduce a _ _ _ _ _ x => a.subjectKind = some .candidate || x.usesCandidate
  | .literal a _ _ _ _ | .observe a _ _ => a.subjectKind = some .candidate

end DailyValueNode

structure MemoKey where
  snapshotId : String
  cutoffIndex : Nat
  clockId : String
  contentHash : ContentHash
  candidate : Option String
  bindingId : Option String
  deriving DecidableEq

/-- A stored result with the addresses its provenance names. -/
structure MemoEntry where
  result : DailyValueResult
  semanticIds : List String

/-- What an evaluator changes while it evaluates. -/
structure EvaluatorState where
  memo : Dict MemoKey MemoEntry := Dict.empty
  evaluationCounts : Dict String Nat := Dict.empty

structure DailyValueEvaluator where
  context : DecimalContext
  snapshot : DailyMarketSnapshot
  cutoffIndex : Nat

namespace DailyValueEvaluator

variable (evaluator : DailyValueEvaluator)

abbrev Evaluated := Stored EvaluatorState DailyValueError DailyValueResult

def view : DailyView := evaluator.snapshot.view evaluator.cutoffIndex

def key (node : DailyValueNode) (candidate bindingId : Option String) : MemoKey where
  snapshotId := evaluator.snapshot.snapshotId
  cutoffIndex := evaluator.cutoffIndex
  clockId := evaluator.snapshot.clock.id
  contentHash := node.contentHash
  candidate := if node.usesCandidate then candidate else none
  bindingId := bindingId

/-- Provenance asks once more which symbols each observation stands for. -/
def buildProvenance (node : DailyValueNode) (candidate : Option String) :
    Except DailyValueError (List String) := do
  let _ ← node.observes.mapM (fun attrs => observedSymbols evaluator.view attrs candidate)
  .ok node.addresses.eraseDups

def countEvaluation (node : DailyValueNode) (s : EvaluatorState) : EvaluatorState :=
  { s with evaluationCounts :=
      s.evaluationCounts.set node.semanticId (s.evaluationCounts.getD node.semanticId 0 + 1) }

def store (key : MemoKey) (entry : MemoEntry) (s : EvaluatorState) : EvaluatorState :=
  { s with memo := s.memo.set key entry }

/-- The stored entry under the addresses of one more node. -/
def share (entry : MemoEntry) (node : DailyValueNode) : MemoEntry :=
  { entry with semanticIds := (entry.semanticIds ++ node.addresses).eraseDups }

/-- Answer from the memo, or evaluate and store the answer. -/
def memoized (node : DailyValueNode) (candidate bindingId : Option String) (body : Evaluated) :
    Evaluated := fun s =>
  let key := evaluator.key node candidate bindingId
  match s.memo.get? key with
  | some entry =>
      if node.addresses.all (fun address => address ∈ entry.semanticIds) then (.ok entry.result, s)
      else (.ok entry.result, store key (share entry node) s)
  | none => (do
      Stored.modify (countEvaluation node)
      let result ← body
      let semanticIds ← Stored.lift (evaluator.buildProvenance node candidate)
      Stored.modify (store key ⟨result, semanticIds⟩)
      pure result : Evaluated) s

/-- Operands are evaluated through the memo. Streams are not, so everything
without evaluated operands is computed as it stands. -/
def evaluate (candidate bindingId : Option String) : DailyValueNode → Evaluated
  | .current attrs operand =>
      evaluator.memoized (.current attrs operand) candidate bindingId (do
        let _ ← Stored.lift (typed bindingId (.current attrs operand))
        evaluate candidate bindingId operand)
  | .absolute attrs operand =>
      evaluator.memoized (.absolute attrs operand) candidate bindingId (do
        let inferred ← Stored.lift (typed bindingId (.absolute attrs operand))
        let source ← evaluate candidate bindingId operand
        pure ⟨inferred, source.axes,
          source.cells.mapValues (fun cell =>
            { cell with value := cell.value.map evaluator.context.abs }),
          source.observedAt⟩)
  | .reduce attrs axis reduction missingPolicy minimumCount minimumFraction operand =>
      let node := DailyValueNode.reduce attrs axis reduction missingPolicy minimumCount
        minimumFraction operand
      evaluator.memoized node candidate bindingId (do
        let inferred ← Stored.lift (typed bindingId node)
        let source ← evaluate candidate bindingId operand
        Stored.lift (evaluateReduce evaluator.context evaluator.view axis reduction missingPolicy
          minimumCount minimumFraction inferred source))
  | .arithmetic attrs operator l r =>
      evaluator.memoized (.arithmetic attrs operator l r) candidate bindingId (do
        let inferred ← Stored.lift (typed bindingId (.arithmetic attrs operator l r))
        let left ← evaluate candidate bindingId l
        let right ← evaluate candidate bindingId r
        Stored.lift (evaluateArithmetic evaluator.context evaluator.view operator inferred left
          right))
  | .literal attrs value quantity unit refinement =>
      let node := DailyValueNode.literal attrs value quantity unit refinement
      evaluator.memoized node candidate bindingId (Stored.lift
        (RuleTrade.evaluate evaluator.context evaluator.view candidate bindingId node))
  | .observe attrs field basis =>
      evaluator.memoized (.observe attrs field basis) candidate bindingId (Stored.lift
        (RuleTrade.evaluate evaluator.context evaluator.view candidate bindingId
          (.observe attrs field basis)))
  | .indicator attrs kind observations skip operand =>
      let node := DailyValueNode.indicator attrs kind observations skip operand
      evaluator.memoized node candidate bindingId (Stored.lift
        (RuleTrade.evaluate evaluator.context evaluator.view candidate bindingId node))
  | .history attrs observations skip operand =>
      evaluator.memoized (.history attrs observations skip operand) candidate bindingId (Stored.lift
        (RuleTrade.evaluate evaluator.context evaluator.view candidate bindingId
          (.history attrs observations skip operand)))

end DailyValueEvaluator

end RuleTrade
