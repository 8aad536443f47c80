import RuleTrade.Authoring.Drafts
import RuleTrade.Backend.TemporalLowering
import RuleTrade.Library.Visit

/-! Edits of Program statements by semantic address. The visit goes down the
statements that an edit has returned, not the ones it was given. -/

namespace RuleTrade

open Library

/-- A branch that owns statements. -/
inductive ProgramBranch where
  | root
  | thenStatements
  | otherwiseStatements
  | event
  deriving DecidableEq, Repr

def ProgramBranch.text : ProgramBranch → String
  | .root => "root"
  | .thenStatements => "then"
  | .otherwiseStatements => "otherwise"
  | .event => "event"

/-- Statements directly below a statement, in the order they are visited. -/
def ProgramStatement.children (statement : ProgramStatement) : List ProgramStatement :=
  statement.bodies.flatten

section Rewriting

variable (semanticId : String)
  (change : ProgramStatement → Except V2AuthoringError (Option ProgramStatement))

/-- Change a statement under the address, and note it. -/
def rewriteAddressed (statement : ProgramStatement) :
    Visit V2AuthoringError ProgramStatement (Option ProgramStatement) :=
  if statement.semanticId = semanticId then
    match change statement with
    | .error e => .raised e
    | .ok current => .returned current [statement]
  else .returned (some statement) []

/-- `visit` of `_rewrite_program_statements`, down to a depth. -/
def visitStatement : Nat → ProgramStatement →
    Visit V2AuthoringError ProgramStatement (Option ProgramStatement)
  | 0, _ => .endless
  | depth + 1, statement =>
      (rewriteAddressed semanticId change statement).bind fun rewritten =>
        match rewritten with
        | none => .returned none []
        | some current =>
            (Visit.all (fun body => (Visit.all (visitStatement depth) body).map
              (List.filterMap id)) current.bodies).map fun bodies =>
                some (current.withBodies bodies)

def rewriteStatements (depth : Nat) (statements : List ProgramStatement) :
    Visit V2AuthoringError ProgramStatement (List ProgramStatement) :=
  (Visit.all (visitStatement semanticId change depth) statements).map (List.filterMap id)

/-- The statements under the address, when the visit comes to an end. -/
def rewriteVisiting (depth : Nat) (program : SemanticProgram) :
    Option (Except V2AuthoringError (SemanticProgram × List ProgramStatement)) :=
  (rewriteStatements semanticId change depth program.statements).settled.map
    (Except.map fun found => ({ program with statements := found.1 }, found.2))

/-- What a changed program is, given the statements found under the address. -/
def uniquelyAddressed (found : SemanticProgram × List ProgramStatement) :
    Except V2AuthoringError (SemanticProgram × ProgramStatement) :=
  match found.2 with
  | [] => .error ⟨"program_statement_not_found",
      "No Program statement has semantic id " ++ quoted semanticId ++ ".", ""⟩
  | [statement] => .ok (found.1, statement)
  | _ => .error ⟨"ambiguous_program_address",
      "Program semantic id " ++ quoted semanticId ++ " is not unique.", ""⟩

def rewriteUnique (depth : Nat) (program : SemanticProgram) :
    Option (Except V2AuthoringError (SemanticProgram × ProgramStatement)) :=
  (rewriteVisiting semanticId change depth program).map fun result =>
    result.bind (uniquelyAddressed semanticId)

end Rewriting

section Edits

/-- `_edit_program_statement`. -/
def editProgramStatement (edit : ProgramStatement → Except V2AuthoringError ProgramStatement)
    (depth : Nat) (program : SemanticProgram) (semanticId : String) :
    Option (Except V2AuthoringError SemanticProgram) :=
  (rewriteUnique semanticId (fun statement => (edit statement).map some) depth program).map
    (Except.map Prod.fst)

/-- Where a statement is inserted among others. -/
def insertPosition (index : Option Nat) (items : List ProgramStatement) : Nat :=
  match index with
  | none => items.length
  | some index => min index items.length

def insertedAt (statement : ProgramStatement) (index : Option Nat)
    (items : List ProgramStatement) : List ProgramStatement :=
  items.take (insertPosition index items) ++ statement :: items.drop (insertPosition index items)

/-- The edit of a parent that an insertion makes. -/
def insertInto (statement : ProgramStatement) (branch : ProgramBranch) (index : Option Nat)
    (parent : ProgramStatement) : Except V2AuthoringError ProgramStatement :=
  match branch, parent with
  | .thenStatements, .control head thenStatements otherwiseStatements =>
      .ok (.control head (insertedAt statement index thenStatements) otherwiseStatements)
  | .otherwiseStatements, .control head thenStatements otherwiseStatements =>
      .ok (.control head thenStatements (insertedAt statement index otherwiseStatements))
  | .event, .onEvent id event statements =>
      .ok (.onEvent id event (insertedAt statement index statements))
  | branch, parent => .error ⟨"program_branch_incompatible",
      quoted parent.kindText ++ " cannot own the " ++ quoted branch.text ++ " Program branch.", ""⟩

def insertProgramStatement (depth : Nat) (program : SemanticProgram)
    (statement : ProgramStatement) (parentSemanticId : Option String) (branch : ProgramBranch)
    (index : Option Nat) : Option (Except V2AuthoringError SemanticProgram) :=
  match parentSemanticId with
  | none =>
      if branch = .root then
        some (.ok { program with statements := insertedAt statement index program.statements })
      else some (.error ⟨"program_parent_required",
        "Branch " ++ quoted branch.text ++ " requires a parent semantic address.", ""⟩)
  | some parent =>
      editProgramStatement (insertInto statement branch index) depth program parent

/-- Removal, then insertion where the statement is to go. -/
def moveProgramStatement (depth : Nat) (program : SemanticProgram) (semanticId : String)
    (parentSemanticId : Option String) (branch : ProgramBranch) (index : Option Nat) :
    Option (Except V2AuthoringError SemanticProgram) :=
  match removeProgramStatement semanticId program with
  | .error e => some (.error e)
  | .ok (without, removed) =>
      insertProgramStatement depth without removed parentSemanticId branch index

/-- `formalize`, the edit of `FormalizeProgramStatement`. -/
def formalize (replacement : ProgramStatement) :
    ProgramStatement → Except V2AuthoringError ProgramStatement
  | .unresolved _ => .ok replacement
  | _ => .error ⟨"program_role_mismatch", "Only an unresolved statement can be formalized.", ""⟩

/-- An edit of a statement's own fields: it may refuse, and the statements below
stay as they are. -/
structure OwnEdit where
  edit : ProgramStatement → Except V2AuthoringError ProgramStatement
  bodies_kept : ∀ statement edited, edit statement = .ok edited →
    edited.bodies = statement.bodies

/-- An edit of a Program and the address it is made at. -/
inductive ProgramEdit where
  | own (semanticId : String) (edit : OwnEdit)
  | formalize (semanticId : String) (replacement : ProgramStatement)
  | insert (statement : ProgramStatement) (parent : Option String) (branch : ProgramBranch)
    (index : Option Nat)
  | remove (semanticId : String)

def ProgramEdit.address : ProgramEdit → Option String
  | .own semanticId _ | .formalize semanticId _ | .remove semanticId => some semanticId
  | .insert _ parent _ _ => parent

/-- What an edit makes of the statement under its address. -/
def ProgramEdit.change : ProgramEdit → ProgramStatement →
    Except V2AuthoringError (Option ProgramStatement)
  | .own _ edit, statement => (edit.edit statement).map some
  | .formalize _ replacement, statement => (RuleTrade.formalize replacement statement).map some
  | .insert inserted _ branch index, parent => (insertInto inserted branch index parent).map some
  | .remove _, _ => .ok none

/-- The program after an edit, when the visit comes to an end within the depth. -/
def ProgramEdit.apply (depth : Nat) (program : SemanticProgram) :
    ProgramEdit → Option (Except V2AuthoringError SemanticProgram)
  | .own semanticId edit => editProgramStatement edit.edit depth program semanticId
  | .formalize semanticId replacement =>
      editProgramStatement (RuleTrade.formalize replacement) depth program semanticId
  | .insert statement parent branch index =>
      insertProgramStatement depth program statement parent branch index
  | .remove semanticId =>
      (rewriteUnique semanticId (fun _ => .ok none) depth program).map (Except.map Prod.fst)

end Edits

end RuleTrade
