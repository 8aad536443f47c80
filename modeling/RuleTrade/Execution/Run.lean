import RuleTrade.Execution.Trace

/-! Runs of a Program: executions at rows that never go back, each starting
from the checkpoint of the one before. -/

namespace RuleTrade

open Library

/-- Finished executions with their rows, the latest first. -/
abbrev History := List (Nat × ProgramExecutionResult)

/-- Checkpoint the next execution of a run starts from. -/
def handover (first : Checkpoint) : History → Checkpoint
  | [] => first
  | (_, result) :: _ => result.checkpoint

/-- A run that starts from the checkpoint `first`. -/
inductive ProgramRun (environment : Environment) (program : SemanticProgram)
    (first : Checkpoint) : History → Prop where
  | start : ProgramRun environment program first []
  | next {history : History} (prior : ProgramRun environment program first history)
      {cutoff : Nat} (later : ∀ last ∈ history.head?, last.1 ≤ cutoff)
      {revisionId : Option String} {result : ProgramExecutionResult}
      (executed : executeIn environment program (some cutoff) revisionId (handover first history) =
        .ok result) :
      ProgramRun environment program first ((cutoff, result) :: history)

/-- Decision of the next execution of a run. -/
def nextDecision (environment : Environment) (program : SemanticProgram) (first : Checkpoint)
    (history : History) (cutoff : Nat) (inRange : cutoff < environment.dates.length) : Decision :=
  (handover first history).decision program environment cutoff inRange

/-- Runtime the next execution of a run starts with. -/
def nextRuntime (program : SemanticProgram) (first : Checkpoint) (history : History) : Runtime :=
  (handover first history).runtime program

/-- The run has an execution at the latest row. -/
theorem ProgramRun.head {environment : Environment} {program : SemanticProgram}
    {first : Checkpoint} {cutoff : Nat} {result : ProgramExecutionResult} {history : History}
    (h : ProgramRun environment program first ((cutoff, result) :: history)) :
    ∃ revisionId, executeIn environment program (some cutoff) revisionId
      (handover first history) = .ok result := by
  cases h with
  | next prior later executed => exact ⟨_, executed⟩

theorem ProgramRun.tail {environment : Environment} {program : SemanticProgram}
    {first : Checkpoint} {entry : Nat × ProgramExecutionResult} {history : History}
    (h : ProgramRun environment program first (entry :: history)) :
    ProgramRun environment program first history := by
  cases h with
  | next prior later executed => exact prior

end RuleTrade
