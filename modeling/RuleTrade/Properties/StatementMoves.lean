import RuleTrade.Authoring.References
import RuleTrade.Backend.Bridge
import RuleTrade.Properties.EditTermination

/-! Insertion, removal and moves of Program statements: what they keep, and where
the statement ends up. -/

namespace RuleTrade

open Library

section Bodies

variable {statement : ProgramStatement} {bodies others : List (List ProgramStatement)}

theorem ProgramStatement.withBodies_bodies (statement : ProgramStatement) :
    statement.withBodies statement.bodies = statement := by
  cases statement <;> rfl

theorem semanticId_withBodies (statement : ProgramStatement)
    (bodies : List (List ProgramStatement)) :
    (statement.withBodies bodies).semanticId = statement.semanticId := by
  unfold ProgramStatement.withBodies
  split <;> rfl

theorem bodies_withBodies (h : bodies.length = statement.bodies.length) :
    (statement.withBodies bodies).bodies = bodies := by
  cases statement with
  | control head thenStatements otherwiseStatements =>
      obtain ⟨first, second, rfl⟩ := List.length_eq_two.mp h
      rfl
  | onEvent id event body =>
      obtain ⟨only, rfl⟩ := List.length_eq_one_iff.mp h
      rfl
  | _ => exact (List.length_eq_zero_iff.mp h).symm

theorem withBodies_withBodies (h : bodies.length = statement.bodies.length)
    (hOthers : others.length = statement.bodies.length) :
    (statement.withBodies bodies).withBodies others = statement.withBodies others := by
  cases statement with
  | control head thenStatements otherwiseStatements =>
      obtain ⟨first, second, rfl⟩ := List.length_eq_two.mp h
      obtain ⟨first', second', rfl⟩ := List.length_eq_two.mp hOthers
      rfl
  | onEvent id event body =>
      obtain ⟨only, rfl⟩ := List.length_eq_one_iff.mp h
      obtain ⟨only', rfl⟩ := List.length_eq_one_iff.mp hOthers
      rfl
  | _ => rfl

theorem flattened_eq (statement : ProgramStatement) :
    statement.flattened = statement :: programStatements statement.children := by
  cases statement with
  | control head thenStatements otherwiseStatements =>
      rw [ProgramStatement.flattened, children_control, programStatements_eq_flatMap,
        programStatements_eq_flatMap, programStatements_eq_flatMap, List.flatMap_append]
  | onEvent id event body => rw [ProgramStatement.flattened, children_onEvent]
  | _ => rfl

theorem programStatements_append (statements rest : List ProgramStatement) :
    programStatements (statements ++ rest) =
      programStatements statements ++ programStatements rest := by
  rw [programStatements_eq_flatMap, List.flatMap_append, ← programStatements_eq_flatMap,
    ← programStatements_eq_flatMap]

end Bodies

section Dropping

variable {semanticId : String} {statement : ProgramStatement}
  {statements rest : List ProgramStatement}

theorem rewritten_of_eq (h : statement.semanticId = semanticId) :
    statement.rewritten (dropAddress semanticId) = none := by
  have hNone : dropAddress semanticId statement = none := if_pos h
  cases statement <;> rw [ProgramStatement.rewritten, hNone] <;> rfl

theorem rewritten_of_ne (h : statement.semanticId ≠ semanticId) :
    statement.rewritten (dropAddress semanticId) = some (statement.withBodies
      (statement.bodies.map (rewrittenStatements (dropAddress semanticId)))) := by
  have hSome : dropAddress semanticId statement = some statement := if_neg h
  cases statement <;> rw [ProgramStatement.rewritten, hSome] <;> rfl

theorem addressed_of_eq (h : statement.semanticId = semanticId) :
    statement.addressed semanticId = [statement] := by
  cases statement <;> exact if_pos h

theorem rewrittenStatements_eq (rewrite : ProgramStatement → Option ProgramStatement)
    (statements : List ProgramStatement) :
    rewrittenStatements rewrite statements =
      statements.filterMap (ProgramStatement.rewritten rewrite) := by
  induction statements with
  | nil => rfl
  | cons statement rest ih =>
      rw [rewrittenStatements, List.filterMap_cons, ih]
      cases statement.rewritten rewrite <;> rfl

theorem addressedStatements_eq (semanticId : String) (statements : List ProgramStatement) :
    addressedStatements semanticId statements =
      statements.flatMap (ProgramStatement.addressed semanticId) := by
  induction statements with
  | nil => rfl
  | cons statement rest ih => rw [addressedStatements, List.flatMap_cons, ih]

theorem addressed_of_ne (h : statement.semanticId ≠ semanticId) :
    statement.addressed semanticId = addressedStatements semanticId statement.children := by
  cases statement with
  | control head thenStatements otherwiseStatements =>
      have hHead : head.semanticId ≠ semanticId := h
      rw [ProgramStatement.addressed, if_neg hHead, children_control, addressedStatements_eq,
        addressedStatements_eq, addressedStatements_eq, List.flatMap_append]
  | onEvent id event body =>
      have hId : id ≠ semanticId := h
      rw [ProgramStatement.addressed, if_neg hId, children_onEvent]
  | _ => exact if_neg h

theorem semanticId_of_addressed {found : ProgramStatement}
    (h : found ∈ statement.addressed semanticId) : found.semanticId = semanticId := by
  induction statement using ProgramStatement.children_induction with
  | h statement ih =>
      by_cases hId : statement.semanticId = semanticId
      · rw [addressed_of_eq hId, List.mem_singleton] at h
        rw [h, hId]
      · rw [addressed_of_ne hId, addressedStatements_eq] at h
        obtain ⟨child, hChild, hFound⟩ := List.mem_flatMap.mp h
        exact ih child hChild hFound

/-- A statement in which the address does not occur. -/
def Lacks (semanticId : String) (statements : List ProgramStatement) : Prop :=
  ∀ statement ∈ programStatements statements, statement.semanticId ≠ semanticId

theorem lacks_append : Lacks semanticId (statements ++ rest) ↔
    Lacks semanticId statements ∧ Lacks semanticId rest := by
  simp only [Lacks, programStatements_append, List.mem_append, or_imp, forall_and]

theorem lacks_iff : Lacks semanticId statements ↔
    ∀ statement ∈ statements, Lacks semanticId [statement] := by
  simp only [Lacks, programStatements_eq_flatMap, List.mem_flatMap, List.flatMap_singleton]
  exact ⟨fun h statement hMem other hOther => h other ⟨statement, hMem, hOther⟩,
    fun h other ⟨statement, hMem, hOther⟩ => h statement hMem other hOther⟩

theorem lacks_singleton : Lacks semanticId [statement] ↔
    statement.semanticId ≠ semanticId ∧ Lacks semanticId statement.children := by
  rw [Lacks, programStatements_eq_flatMap, List.flatMap_singleton, flattened_eq,
    List.forall_mem_cons, Lacks]

/-- A statement that a removal leaves as it is. -/
def Undropped (semanticId : String) (statement : ProgramStatement) : Prop :=
  statement.rewritten (dropAddress semanticId) = some statement ∧
    statement.addressed semanticId = []

theorem undropped_statements (h : ∀ statement ∈ statements, Undropped semanticId statement) :
    rewrittenStatements (dropAddress semanticId) statements = statements ∧
      addressedStatements semanticId statements = [] := by
  rw [rewrittenStatements_eq, addressedStatements_eq]
  refine ⟨?_, List.flatMap_eq_nil_iff.mpr fun item hItem => (h item hItem).2⟩
  calc statements.filterMap (ProgramStatement.rewritten (dropAddress semanticId))
      = statements.filterMap some := List.filterMap_congr fun item hItem => (h item hItem).1
    _ = statements := List.filterMap_some

/-- Nothing is dropped where the address does not occur. -/
theorem dropped_of_lacks (h : Lacks semanticId [statement]) : Undropped semanticId statement := by
  induction statement using ProgramStatement.children_induction with
  | h statement ih =>
      obtain ⟨hId, hChildren⟩ := lacks_singleton.mp h
      have hEach : ∀ child ∈ statement.children, Undropped semanticId child := fun child hChild =>
        ih child hChild (lacks_iff.mp hChildren child hChild)
      have hBodies : statement.bodies.map (rewrittenStatements (dropAddress semanticId)) =
          statement.bodies := by
        calc statement.bodies.map (rewrittenStatements (dropAddress semanticId))
            = statement.bodies.map id := List.map_congr_left fun body hBody =>
              (undropped_statements fun item hItem =>
                hEach item (List.mem_flatten.mpr ⟨body, hBody, hItem⟩)).1
          _ = statement.bodies := List.map_id _
      rw [Undropped, rewritten_of_ne hId, hBodies, statement.withBodies_bodies,
        addressed_of_ne hId]
      exact ⟨rfl, (undropped_statements hEach).2⟩

theorem dropped_statements (h : Lacks semanticId statements) :
    rewrittenStatements (dropAddress semanticId) statements = statements ∧
      addressedStatements semanticId statements = [] :=
  undropped_statements fun statement hStatement => dropped_of_lacks (lacks_iff.mp h statement
    hStatement)

end Dropping

section Branches

/-- Statements in a branch of a statement that has it. -/
def ProgramStatement.branch? : ProgramBranch → ProgramStatement → Option (List ProgramStatement)
  | .thenStatements, .control _ thenStatements _ => some thenStatements
  | .otherwiseStatements, .control _ _ otherwiseStatements => some otherwiseStatements
  | .event, .onEvent _ _ body => some body
  | _, _ => none

variable {inserted parent edited : ProgramStatement} {branch : ProgramBranch} {index : Option Nat}

/-- A statement takes others exactly in a branch it has. -/
theorem insertInto_error_iff :
    (∃ e, insertInto inserted branch index parent = .error e) ↔ parent.branch? branch = none := by
  cases branch <;> cases parent <;> simp [insertInto, ProgramStatement.branch?]

theorem insertInto_ok (h : insertInto inserted branch index parent = .ok edited) :
    ∃ before items after, parent.bodies = before ++ items :: after ∧
      edited = parent.withBodies (before ++ insertedAt inserted index items :: after) ∧
      parent.branch? branch = some items ∧
      edited.branch? branch = some (insertedAt inserted index items) := by
  cases branch <;> cases parent <;> cases h
  case thenStatements.control.refl head thenStatements otherwiseStatements =>
    exact ⟨[], thenStatements, [otherwiseStatements], rfl, rfl, rfl, rfl⟩
  case otherwiseStatements.control.refl head thenStatements otherwiseStatements =>
    exact ⟨[thenStatements], otherwiseStatements, [], rfl, rfl, rfl, rfl⟩
  case event.onEvent.refl id event body => exact ⟨[], body, [], rfl, rfl, rfl, rfl⟩

end Branches

section Pairs

variable {α β γ : Type} {R : α → β → Prop} {xs : List α} {ys : List β}

theorem map_of_forall₂ {A : β → γ} {B : α → γ} (h : ∀ x y, R x y → A y = B x)
    (hAll : List.Forall₂ R xs ys) : ys.map A = xs.map B := by
  induction hAll with
  | nil => rfl
  | cons hHere _ ih => rw [List.map_cons, List.map_cons, ih, h _ _ hHere]

theorem forall_of_forall₂ {Q : β → Prop} (h : ∀ x y, R x y → Q y) (hAll : List.Forall₂ R xs ys) :
    ∀ y ∈ ys, Q y := by
  induction hAll with
  | nil => exact fun _ hNone => absurd hNone List.not_mem_nil
  | cons hHere _ ih => exact List.forall_mem_cons.mpr ⟨h _ _ hHere, ih⟩

theorem flatMap_of_forall₂ {A : β → List γ} {B : α → List γ} (h : ∀ x y, R x y → A y = B x)
    (hAll : List.Forall₂ R xs ys) : ys.flatMap A = xs.flatMap B := by
  rw [List.flatMap_def, List.flatMap_def, map_of_forall₂ h hAll]

theorem filterMap_fst_of_forall₂ {pairs : List (Option γ × β)} {B : α → List γ}
    {S : α → Option γ × β → Prop} (h : ∀ x pair, S x pair → pair.1.toList = B x)
    (hAll : List.Forall₂ S xs pairs) : pairs.filterMap Prod.fst = xs.flatMap B := by
  induction hAll with
  | nil => rfl
  | @cons x pair _ _ hHere _ ih =>
      rw [List.flatMap_cons, ← h x pair hHere, ← ih, List.filterMap_cons]
      cases pair.1 <;> rfl

theorem flatMap_filterMap_fst (pairs : List (Option α × β)) (f : α → List γ) :
    (pairs.filterMap Prod.fst).flatMap f = pairs.flatMap (fun pair => pair.1.toList.flatMap f) := by
  induction pairs with
  | nil => rfl
  | cons pair pairs ih =>
      rw [List.flatMap_cons, ← ih, List.filterMap_cons]
      cases pair.1 with
      | none => rfl
      | some item => simp

theorem length_flatMap_of_forall₂ {δ : Type} {A : β → List γ} {B : β → List δ} {c : α → Nat}
    (h : ∀ x y, R x y → (A y).length = (B y).length + c x) (hAll : List.Forall₂ R xs ys) :
    (ys.flatMap A).length = (ys.flatMap B).length + (xs.map c).sum := by
  induction hAll with
  | nil => rfl
  | @cons x y _ _ hHere _ ih =>
      rw [List.flatMap_cons, List.flatMap_cons, List.length_append, List.length_append,
        List.map_cons, List.sum_cons, h x y hHere, ih]
      omega

end Pairs

section Visits

variable (semanticId : String) (inserted : ProgramStatement) (branch : ProgramBranch)
  (index : Option Nat)

/-- The visit of an insertion. -/
def insertionVisit (depth : Nat) (statement : ProgramStatement) :
    Visit V2AuthoringError ProgramStatement (Option ProgramStatement) :=
  visitStatement semanticId (fun parent => (insertInto inserted branch index parent).map some)
    depth statement

/-- The same for one of the bodies below a statement. -/
def insertionBody (depth : Nat) (body : List ProgramStatement) :
    Visit V2AuthoringError ProgramStatement (List ProgramStatement) :=
  (Visit.all (insertionVisit semanticId inserted branch index depth) body).map (List.filterMap id)

variable {semanticId inserted branch index} {depth : Nat} {statement : ProgramStatement}
  {result : Option ProgramStatement} {noted : List ProgramStatement}

/-- A visit that returns goes down the bodies of what the insertion has made. -/
theorem insertionVisit_returned
    (h : insertionVisit semanticId inserted branch index (depth + 1) statement =
      .returned result noted) :
    ∃ current bodies below,
      Visit.all (insertionBody semanticId inserted branch index depth) current.bodies =
        .returned bodies below ∧ result = some (current.withBodies bodies) ∧
      (statement.semanticId ≠ semanticId ∧ current = statement ∧ noted = below ∨
        statement.semanticId = semanticId ∧ insertInto inserted branch index statement =
          .ok current ∧ noted = statement :: below) := by
  rw [insertionVisit, visitStatement, Visit.bind_eq_returned] at h
  obtain ⟨rewritten, own, below, hRewritten, hBelow, rfl⟩ := h
  by_cases hId : statement.semanticId = semanticId
  · cases hInto : insertInto inserted branch index statement with
    | error e =>
        rw [rewriteAddressed, if_pos hId, hInto] at hRewritten
        cases hRewritten
    | ok current =>
        rw [rewriteAddressed, if_pos hId, hInto] at hRewritten
        cases hRewritten
        obtain ⟨bodies, hBodies, rfl⟩ := Visit.map_eq_returned.mp hBelow
        exact ⟨current, bodies, below, hBodies, rfl, Or.inr ⟨hId, rfl, rfl⟩⟩
  · rw [rewriteAddressed, if_neg hId] at hRewritten
    cases hRewritten
    obtain ⟨bodies, hBodies, rfl⟩ := Visit.map_eq_returned.mp hBelow
    exact ⟨statement, bodies, below, hBodies, rfl, Or.inl ⟨hId, rfl, rfl⟩⟩

/-- Bodies are visited one by one, and what the visits of their statements give
stands in the same places. -/
theorem insertionBodies_returned {P : ProgramStatement → Option ProgramStatement →
      List ProgramStatement → Prop} {bodies results : List (List ProgramStatement)}
    (hEach : ∀ child ∈ bodies.flatten, ∀ result noted,
      insertionVisit semanticId inserted branch index depth child = .returned result noted →
        P child result noted)
    (h : Visit.all (insertionBody semanticId inserted branch index depth) bodies =
      .returned results noted) :
    ∃ found : List (List (Option ProgramStatement × List ProgramStatement)),
      List.Forall₂ (List.Forall₂ (fun child pair => P child pair.1 pair.2)) bodies found ∧
      results = found.map (List.filterMap Prod.fst) ∧
      noted = found.flatMap (List.flatMap Prod.snd) := by
  induction bodies generalizing results noted with
  | nil =>
      cases h
      exact ⟨[], .nil, rfl, rfl⟩
  | cons body rest ih =>
      rw [Visit.all, Visit.bind_eq_returned] at h
      obtain ⟨first, own, more, hFirst, hRest, rfl⟩ := h
      obtain ⟨others, hOthers, rfl⟩ := Visit.map_eq_returned.mp hRest
      obtain ⟨items, hItems, rfl⟩ := Visit.map_eq_returned.mp hFirst
      obtain ⟨pairs, hPairs, rfl, rfl⟩ := Visit.all_eq_returned hItems
      obtain ⟨found, hFound, rfl, rfl⟩ := ih (fun child hChild =>
        hEach child (List.mem_append_right body hChild)) hOthers
      have hHere : List.Forall₂ (fun child pair => P child pair.1 pair.2) body pairs := by
        refine List.forall₂_iff_zip.mpr ⟨hPairs.length_eq, fun {child pair} hMem => ?_⟩
        have hReturned := (List.forall₂_iff_zip.mp hPairs).2 hMem
        exact hEach child (List.mem_append_left _ (List.of_mem_zip hMem).1) _ _ hReturned
      refine ⟨pairs :: found, .cons hHere hFound, ?_, by rw [List.flatMap_cons]⟩
      rw [List.map_cons, List.filterMap_map]
      rfl

/-- Statements under the address, outside and inside one another. -/
def addressedWithin (semanticId : String) (statements : List ProgramStatement) :
    List ProgramStatement :=
  (programStatements statements).filter (fun statement => statement.semanticId = semanticId)

theorem addressedWithin_of_lacks {statements : List ProgramStatement}
    (h : Lacks semanticId statements) : addressedWithin semanticId statements = [] :=
  List.filter_eq_nil_iff.mpr fun statement hStatement => by simpa using h statement hStatement

theorem addressedWithin_append (statements rest : List ProgramStatement) :
    addressedWithin semanticId (statements ++ rest) =
      addressedWithin semanticId statements ++ addressedWithin semanticId rest := by
  rw [addressedWithin, programStatements_append, List.filter_append, addressedWithin,
    addressedWithin]

theorem addressedWithin_flatMap (statements : List ProgramStatement) :
    statements.flatMap (fun statement => addressedWithin semanticId [statement]) =
      addressedWithin semanticId statements := by
  induction statements with
  | nil => rfl
  | cons statement rest ih =>
      rw [List.flatMap_cons, ih, ← addressedWithin_append, List.singleton_append]

theorem addressedWithin_flatten (bodies : List (List ProgramStatement)) :
    bodies.flatMap (addressedWithin semanticId) = addressedWithin semanticId bodies.flatten := by
  induction bodies with
  | nil => rfl
  | cons body rest ih =>
      rw [List.flatMap_cons, ih, List.flatten_cons, addressedWithin_append]

theorem addressedWithin_singleton (statement : ProgramStatement) :
    addressedWithin semanticId [statement] =
      (if statement.semanticId = semanticId then [statement] else []) ++
        addressedWithin semanticId statement.children := by
  rw [addressedWithin, programStatements_eq_flatMap, List.flatMap_singleton, flattened_eq,
    List.filter_cons, addressedWithin]
  split <;> rename_i h
  · rw [if_pos (by simpa using h)]
    rfl
  · rw [if_neg (by simpa using h)]
    rfl

/-- The new statement is one more child, at its position. -/
theorem children_insertInto {parent edited : ProgramStatement}
    (h : insertInto inserted branch index parent = .ok edited) :
    ∃ before after, parent.children = before ++ after ∧
      edited.children = before ++ inserted :: after := by
  obtain ⟨before, items, after, hBodies, rfl, -, -⟩ := insertInto_ok h
  refine ⟨before.flatten ++ items.take (insertPosition index items),
    items.drop (insertPosition index items) ++ after.flatten, ?_, ?_⟩
  · rw [ProgramStatement.children, hBodies, List.flatten_append, List.flatten_cons,
      List.append_assoc, ← List.append_assoc (items.take _), List.take_append_drop]
  · rw [ProgramStatement.children, bodies_withBodies (by rw [hBodies]; simp)]
    simp [insertedAt]

theorem not_lacks_of_child {child : ProgramStatement} (hChild : child ∈ statement.children)
    (h : ¬ Lacks semanticId [child]) : ¬ Lacks semanticId [statement] := fun hLacks =>
  h (lacks_iff.mp (lacks_singleton.mp hLacks).2 child hChild)

/-- An insertion notes the statements under the address: the new statement has none,
unless it is put nowhere. -/
theorem noted_insertionVisit (h : ¬ Lacks semanticId [statement] → Lacks semanticId [inserted])
    (hReturned : insertionVisit semanticId inserted branch index depth statement =
      .returned result noted) : noted = addressedWithin semanticId [statement] := by
  induction depth generalizing statement result noted with
  | zero => cases hReturned
  | succ depth ih =>
      obtain ⟨current, bodies, below, hBodies, rfl, hCases⟩ := insertionVisit_returned hReturned
      have hEach : ∀ child ∈ current.bodies.flatten, ∀ result noted,
          insertionVisit semanticId inserted branch index depth child = .returned result noted →
            noted = addressedWithin semanticId [child] := by
        intro child hChild result noted hVisit
        refine ih (fun hSome => ?_) hVisit
        have hChild : child ∈ current.children := hChild
        rcases hCases with ⟨-, rfl, -⟩ | ⟨hId, -, -⟩
        · exact h (not_lacks_of_child hChild hSome)
        · exact h fun hLacks => (lacks_singleton.mp hLacks).1 hId
      obtain ⟨found, hFound, -, rfl⟩ := insertionBodies_returned hEach hBodies
      have hBelow : found.flatMap (List.flatMap Prod.snd) =
          addressedWithin semanticId current.children := by
        rw [ProgramStatement.children, ← addressedWithin_flatten]
        refine flatMap_of_forall₂ (fun body pairs hPairs => ?_) hFound
        rw [← addressedWithin_flatMap body]
        exact flatMap_of_forall₂ (fun _ _ hPair => hPair) hPairs
      rw [addressedWithin_singleton]
      rcases hCases with ⟨hId, rfl, rfl⟩ | ⟨hId, hInto, rfl⟩
      · rw [if_neg hId, List.nil_append, hBelow]
      · obtain ⟨before, after, hChildren, hCurrent⟩ := children_insertInto hInto
        have hNone : addressedWithin semanticId [inserted] = [] :=
          addressedWithin_of_lacks (h fun hLacks => (lacks_singleton.mp hLacks).1 hId)
        have hCut : before ++ inserted :: after = before ++ [inserted] ++ after := by simp
        rw [if_pos hId, hBelow, hCurrent, hChildren, hCut, addressedWithin_append,
          addressedWithin_append, addressedWithin_append, hNone, List.append_nil]
        rfl

theorem bodies_of_unchanged {bodies results : List (List ProgramStatement)}
    (hEach : ∀ child ∈ bodies.flatten, ∀ result noted,
      insertionVisit semanticId inserted branch index depth child = .returned result noted →
        result = some child)
    (h : Visit.all (insertionBody semanticId inserted branch index depth) bodies =
      .returned results noted) : results = bodies := by
  obtain ⟨found, hFound, rfl, -⟩ := insertionBodies_returned hEach h
  refine (map_of_forall₂ (fun body pairs hPairs => ?_) hFound).trans (List.map_id _)
  refine (filterMap_fst_of_forall₂ (fun child pair hPair => ?_) hPairs).trans
    (List.flatMap_singleton' body)
  rw [hPair]
  rfl

/-- Nothing changes below an address that does not occur. -/
theorem insertionVisit_of_lacks (h : Lacks semanticId [statement])
    (hReturned : insertionVisit semanticId inserted branch index depth statement =
      .returned result noted) : result = some statement := by
  induction depth generalizing statement result noted with
  | zero => cases hReturned
  | succ depth ih =>
      obtain ⟨hId, hChildren⟩ := lacks_singleton.mp h
      obtain ⟨current, bodies, below, hBodies, rfl, hCases⟩ := insertionVisit_returned hReturned
      rcases hCases with ⟨-, rfl, rfl⟩ | ⟨hSame, -, -⟩
      · have hUnchanged := bodies_of_unchanged (fun child hChild _ _ hVisit =>
          ih (lacks_iff.mp hChildren child hChild) hVisit) hBodies
        rw [hUnchanged, current.withBodies_bodies]
      · exact absurd hSame hId

theorem insertionVisit_bodies_of_lacks {current : ProgramStatement}
    {results : List (List ProgramStatement)} (h : Lacks semanticId current.children)
    (hBodies : Visit.all (insertionBody semanticId inserted branch index depth) current.bodies =
      .returned results noted) : results = current.bodies :=
  bodies_of_unchanged (fun child hChild _ _ hVisit =>
    insertionVisit_of_lacks (lacks_iff.mp h child hChild) hVisit) hBodies

/-- What is left of a statement where the new one is dropped, and how many copies of
the new one it has. -/
def keptOf (inserted child : ProgramStatement) : List ProgramStatement :=
  if child.semanticId = inserted.semanticId then [] else [child]

def copiesOf (inserted child : ProgramStatement) : Nat :=
  if child.semanticId = inserted.semanticId then 1 else 0

theorem kept_of_lacks {items : List ProgramStatement} (h : Lacks inserted.semanticId items) :
    items.flatMap (keptOf inserted) = items ∧ (items.map (copiesOf inserted)).sum = 0 := by
  induction items with
  | nil => exact ⟨rfl, rfl⟩
  | cons item rest ih =>
      rw [← List.singleton_append, lacks_append] at h
      have hId := (lacks_singleton.mp h.1).1
      obtain ⟨hKept, hCopies⟩ := ih h.2
      rw [List.flatMap_cons, hKept, List.map_cons, List.sum_cons, hCopies, keptOf, copiesOf,
        if_neg hId, if_neg hId]
      exact ⟨rfl, rfl⟩

/-- A visited child: what dropping the new statement leaves of it. -/
structure Restored (inserted child : ProgramStatement) (result : Option ProgramStatement)
    (noted : List ProgramStatement) : Prop where
  kept : result.toList.flatMap (fun found =>
    (found.rewritten (dropAddress inserted.semanticId)).toList) = keptOf inserted child
  copies : ∀ copy ∈ result.toList.flatMap (ProgramStatement.addressed inserted.semanticId),
    copy = inserted
  length : (result.toList.flatMap (ProgramStatement.addressed inserted.semanticId)).length =
    noted.length + copiesOf inserted child

theorem restored_inserted (h : Lacks semanticId [inserted])
    (hReturned : insertionVisit semanticId inserted branch index depth inserted =
      .returned result noted) : Restored inserted inserted result noted := by
  have hNoted := noted_insertionVisit (fun _ => h) hReturned
  rw [addressedWithin_of_lacks h] at hNoted
  rw [insertionVisit_of_lacks h hReturned, hNoted]
  have hDropped : inserted.rewritten (dropAddress inserted.semanticId) = none :=
    rewritten_of_eq rfl
  have hAddressed : inserted.addressed inserted.semanticId = [inserted] := addressed_of_eq rfl
  refine ⟨?_, ?_, ?_⟩
  · simp [hDropped, keptOf]
  · simp [hAddressed]
  · simp [hAddressed, copiesOf]

/-- A body under the visit, where each child is restored. -/
theorem restored_bodies {bodies : List (List ProgramStatement)}
    {found : List (List (Option ProgramStatement × List ProgramStatement))}
    (h : List.Forall₂ (List.Forall₂ fun child pair => Restored inserted child pair.1 pair.2)
      bodies found) :
    (found.map (List.filterMap Prod.fst)).map
        (rewrittenStatements (dropAddress inserted.semanticId)) =
      bodies.map (List.flatMap (keptOf inserted)) ∧
    (∀ copy ∈ addressedStatements inserted.semanticId
      (found.map (List.filterMap Prod.fst)).flatten, copy = inserted) ∧
    (addressedStatements inserted.semanticId
      (found.map (List.filterMap Prod.fst)).flatten).length =
        (found.flatMap (List.flatMap Prod.snd)).length +
          (bodies.flatten.map (copiesOf inserted)).sum := by
  have hAddressed : addressedStatements inserted.semanticId
      (found.map (List.filterMap Prod.fst)).flatten = found.flatMap (List.flatMap fun pair =>
        pair.1.toList.flatMap (ProgramStatement.addressed inserted.semanticId)) := by
    rw [addressedStatements_eq, ← List.flatMap_def, List.flatMap_assoc]
    congr
    funext pairs
    exact flatMap_filterMap_fst pairs _
  rw [hAddressed]
  refine ⟨?_, ?_, ?_⟩
  · rw [List.map_map]
    refine map_of_forall₂ (fun body pairs hPairs => ?_) h
    show rewrittenStatements _ (pairs.filterMap Prod.fst) = body.flatMap (keptOf inserted)
    rw [rewrittenStatements_eq, List.filterMap_eq_flatMap_toList, flatMap_filterMap_fst]
    exact flatMap_of_forall₂ (fun _ _ hPair => hPair.kept) hPairs
  · intro copy hCopy
    obtain ⟨pairs, hPairs, hCopy⟩ := List.mem_flatMap.mp hCopy
    obtain ⟨pair, hPair, hCopy⟩ := List.mem_flatMap.mp hCopy
    have hCopies := forall_of_forall₂ (fun _ _ hAll =>
      forall_of_forall₂ (fun _ _ hOne => Restored.copies hOne) hAll) h
    exact hCopies pairs hPairs pair hPair copy hCopy
  · rw [List.map_flatten, List.sum_flatten, List.map_map]
    refine length_flatMap_of_forall₂ (fun body pairs hPairs => ?_) h
    exact length_flatMap_of_forall₂ (fun _ _ hPair => hPair.length) hPairs

theorem keptOf_insertedAt {items : List ProgramStatement}
    (h : Lacks inserted.semanticId items) :
    (insertedAt inserted index items).flatMap (keptOf inserted) = items := by
  have hNone : keptOf inserted inserted = [] := if_pos rfl
  rw [← List.take_append_drop (insertPosition index items) items, lacks_append] at h
  rw [insertedAt, List.flatMap_append, List.flatMap_cons, hNone, (kept_of_lacks h.1).1,
    (kept_of_lacks h.2).1, List.nil_append, List.take_append_drop]

/-- A statement over restored bodies is restored. -/
theorem restored_of_bodies {bodies results : List (List ProgramStatement)}
    (hId : statement.semanticId ≠ inserted.semanticId)
    (hBodies : bodies.map (List.flatMap (keptOf inserted)) = statement.bodies)
    (hResults : results.map (rewrittenStatements (dropAddress inserted.semanticId)) =
      bodies.map (List.flatMap (keptOf inserted)))
    (hCopies : ∀ copy ∈ addressedStatements inserted.semanticId results.flatten, copy = inserted)
    (hLength : (addressedStatements inserted.semanticId results.flatten).length = noted.length) :
    Restored inserted statement (some ((statement.withBodies bodies).withBodies results)) noted := by
  have hCount : bodies.length = statement.bodies.length := by
    rw [← hBodies, List.length_map]
  have hCount' : results.length = statement.bodies.length := by
    rw [← hBodies, ← hResults, List.length_map]
  rw [withBodies_withBodies hCount hCount']
  have hFoundId : (statement.withBodies results).semanticId ≠ inserted.semanticId := by
    rw [semanticId_withBodies]
    exact hId
  have hDropped : (statement.withBodies results).rewritten (dropAddress inserted.semanticId) =
      some statement := by
    rw [rewritten_of_ne hFoundId, bodies_withBodies hCount', hResults, hBodies,
      withBodies_withBodies hCount' rfl, statement.withBodies_bodies]
  have hAddressed : (statement.withBodies results).addressed inserted.semanticId =
      addressedStatements inserted.semanticId results.flatten := by
    rw [addressed_of_ne hFoundId, ProgramStatement.children, bodies_withBodies hCount']
  refine ⟨?_, ?_, ?_⟩
  · simp [hDropped, keptOf, hId]
  · simpa [hAddressed] using hCopies
  · simpa [hAddressed, copiesOf, hId] using hLength

theorem map_kept_of_lacks {bodies : List (List ProgramStatement)}
    (h : Lacks inserted.semanticId bodies.flatten) :
    bodies.map (List.flatMap (keptOf inserted)) = bodies := by
  induction bodies with
  | nil => rfl
  | cons body rest ih =>
      rw [List.flatten_cons, lacks_append] at h
      rw [List.map_cons, (kept_of_lacks h.1).1, ih h.2]

/-- Dropping the new statement from what a visit returns gives back the visited one. -/
theorem restored (hAddress : Lacks semanticId [inserted])
    (h : Lacks inserted.semanticId [statement])
    (hReturned : insertionVisit semanticId inserted branch index depth statement =
      .returned result noted) : Restored inserted statement result noted := by
  induction depth generalizing statement result noted with
  | zero => cases hReturned
  | succ depth ih =>
      obtain ⟨hId, hChildren⟩ := lacks_singleton.mp h
      obtain ⟨current, bodies, below, hBodies, rfl, hCases⟩ := insertionVisit_returned hReturned
      rcases hCases with ⟨-, rfl, rfl⟩ | ⟨-, hInto, rfl⟩
      · have hEach : ∀ child ∈ current.bodies.flatten, ∀ result noted,
            insertionVisit semanticId inserted branch index depth child = .returned result noted →
              Restored inserted child result noted := fun child hChild _ _ hVisit =>
          ih (lacks_iff.mp hChildren child hChild) hVisit
        obtain ⟨found, hFound, rfl, rfl⟩ := insertionBodies_returned hEach hBodies
        obtain ⟨hKept, hCopies, hLength⟩ := restored_bodies hFound
        have hNone : (current.bodies.flatten.map (copiesOf inserted)).sum = 0 :=
          (kept_of_lacks hChildren).2
        rw [hNone, Nat.add_zero] at hLength
        have hRestored := restored_of_bodies hId (map_kept_of_lacks hChildren) hKept hCopies hLength
        rwa [current.withBodies_bodies] at hRestored
      · obtain ⟨xs, ys, hOld, hNew⟩ := children_insertInto hInto
        have hParts := hChildren
        rw [hOld, lacks_append] at hParts
        have hEach : ∀ child ∈ current.bodies.flatten, ∀ result noted,
            insertionVisit semanticId inserted branch index depth child = .returned result noted →
              Restored inserted child result noted := by
          intro child hChild _ _ hVisit
          have hChild : child ∈ current.children := hChild
          rw [hNew, List.mem_append, List.mem_cons] at hChild
          rcases hChild with hBefore | rfl | hAfter
          · exact ih (lacks_iff.mp hParts.1 child hBefore) hVisit
          · exact restored_inserted hAddress hVisit
          · exact ih (lacks_iff.mp hParts.2 child hAfter) hVisit
        have hOne : (current.bodies.flatten.map (copiesOf inserted)).sum = 1 := by
          have hInserted : copiesOf inserted inserted = 1 := if_pos rfl
          have hFlat : current.bodies.flatten = xs ++ inserted :: ys := hNew
          rw [hFlat, List.map_append, List.map_cons, List.sum_append, List.sum_cons, hInserted,
            (kept_of_lacks hParts.1).2, (kept_of_lacks hParts.2).2]
        obtain ⟨before, items, after, hBodiesOf, rfl, -, -⟩ := insertInto_ok hInto
        obtain ⟨found, hFound, rfl, rfl⟩ := insertionBodies_returned hEach hBodies
        obtain ⟨hKept, hCopies, hLength⟩ := restored_bodies hFound
        rw [hOne] at hLength
        have hPlaced : (statement.withBodies
            (before ++ insertedAt inserted index items :: after)).bodies =
            before ++ insertedAt inserted index items :: after :=
          bodies_withBodies (by rw [hBodiesOf]; simp)
        have hBack : (before ++ insertedAt inserted index items :: after).map
            (List.flatMap (keptOf inserted)) = statement.bodies := by
          rw [ProgramStatement.children, hBodiesOf, List.flatten_append, List.flatten_cons,
            lacks_append, lacks_append] at hChildren
          rw [List.map_append, List.map_cons, map_kept_of_lacks hChildren.1,
            keptOf_insertedAt hChildren.2.1, map_kept_of_lacks hChildren.2.2, hBodiesOf]
        rw [hPlaced] at hKept
        exact restored_of_bodies hId hBack hKept hCopies hLength

end Visits

section Places

variable {semanticId : String} {inserted : ProgramStatement} {branch : ProgramBranch}
  {index : Option Nat} {depth : Nat} {statement : ProgramStatement}
  {result : Option ProgramStatement} {noted : List ProgramStatement}

theorem lacks_of_addressedWithin {statements : List ProgramStatement}
    (h : addressedWithin semanticId statements = []) : Lacks semanticId statements := by
  intro statement hStatement
  simpa using List.filter_eq_nil_iff.mp h statement hStatement

/-- A statement with the new one in its branch, where it has that branch. -/
def withInserted (inserted : ProgramStatement) (branch : ProgramBranch) (index : Option Nat)
    (parent : ProgramStatement) : ProgramStatement :=
  match insertInto inserted branch index parent with
  | .ok edited => edited
  | .error _ => parent

theorem semanticId_insertInto {parent edited : ProgramStatement}
    (h : insertInto inserted branch index parent = .ok edited) :
    edited.semanticId = parent.semanticId := by
  obtain ⟨before, items, after, -, rfl, -, -⟩ := insertInto_ok h
  exact semanticId_withBodies _ _

/-- The one statement under the address is what the insertion makes of it, and stands
where it stood. -/
theorem addressedWithin_insertionVisit
    (h : ¬ Lacks semanticId [statement] → Lacks semanticId [inserted])
    (hUnique : (addressedWithin semanticId [statement]).length ≤ 1)
    (hReturned : insertionVisit semanticId inserted branch index depth statement =
      .returned result noted) :
    result.toList.flatMap (fun found => addressedWithin semanticId [found]) =
      (addressedWithin semanticId [statement]).map (withInserted inserted branch index) := by
  induction depth generalizing statement result noted with
  | zero => cases hReturned
  | succ depth ih =>
      obtain ⟨current, bodies, below, hBodies, rfl, hCases⟩ := insertionVisit_returned hReturned
      rw [Option.toList_some, List.flatMap_singleton]
      rcases hCases with ⟨hId, rfl, rfl⟩ | ⟨hId, hInto, rfl⟩
      · rw [addressedWithin_singleton, if_neg hId, List.nil_append] at hUnique
        have hEach : ∀ child ∈ current.bodies.flatten, ∀ result noted,
            insertionVisit semanticId inserted branch index depth child = .returned result noted →
              result.toList.flatMap (fun found => addressedWithin semanticId [found]) =
                (addressedWithin semanticId [child]).map (withInserted inserted branch index) := by
          intro child hChild result noted hVisit
          refine ih (fun hSome => h (not_lacks_of_child hChild hSome)) ?_ hVisit
          refine Nat.le_trans ?_ hUnique
          have hPart : List.Sublist (addressedWithin semanticId [child])
              (current.children.map fun child => addressedWithin semanticId [child]).flatten :=
            List.sublist_flatten_of_mem (List.mem_map_of_mem hChild)
          rw [← List.flatMap_def, addressedWithin_flatMap] at hPart
          exact hPart.length_le
        obtain ⟨found, hFound, rfl, -⟩ := insertionBodies_returned hEach hBodies
        have hCount : (found.map (List.filterMap Prod.fst)).length = current.bodies.length := by
          rw [List.length_map, hFound.length_eq]
        have hInner : ∀ body (pairs : List (Option ProgramStatement × List ProgramStatement)),
            List.Forall₂ (fun child pair => pair.1.toList.flatMap (fun found =>
              addressedWithin semanticId [found]) = (addressedWithin semanticId [child]).map
                (withInserted inserted branch index)) body pairs →
            addressedWithin semanticId (pairs.filterMap Prod.fst) =
              (addressedWithin semanticId body).map (withInserted inserted branch index) := by
          intro body pairs hPairs
          rw [← addressedWithin_flatMap, flatMap_filterMap_fst,
            flatMap_of_forall₂ (fun _ _ hPair => hPair) hPairs, ← addressedWithin_flatMap body,
            List.map_flatMap]
        rw [addressedWithin_singleton, semanticId_withBodies, if_neg hId, List.nil_append,
          ProgramStatement.children, bodies_withBodies hCount, ← addressedWithin_flatten,
          addressedWithin_singleton, if_neg hId, List.nil_append, ProgramStatement.children,
          ← addressedWithin_flatten, List.map_flatMap, List.flatMap_map]
        exact flatMap_of_forall₂ hInner hFound
      · have hLacks := h fun hLacks => (lacks_singleton.mp hLacks).1 hId
        have hBelow : addressedWithin semanticId statement.children = [] := by
          rw [addressedWithin_singleton, if_pos hId] at hUnique
          exact List.length_eq_zero_iff.mp (by simpa using hUnique)
        obtain ⟨before, after, hOld, hNew⟩ := children_insertInto hInto
        have hChildren : Lacks semanticId current.children := by
          have hOldLacks := lacks_of_addressedWithin hBelow
          rw [hOld, lacks_append] at hOldLacks
          rw [hNew, ← List.singleton_append, lacks_append, lacks_append]
          exact ⟨hOldLacks.1, hLacks, hOldLacks.2⟩
        have hUnchanged := insertionVisit_bodies_of_lacks hChildren hBodies
        rw [hUnchanged, current.withBodies_bodies, addressedWithin_singleton,
          semanticId_insertInto hInto, if_pos hId, addressedWithin_of_lacks hChildren,
          addressedWithin_singleton, if_pos hId, hBelow]
        simp [withInserted, hInto]

/-- Every statement of a list takes the new one. -/
def Takes (inserted : ProgramStatement) (branch : ProgramBranch) (index : Option Nat)
    (parents : List ProgramStatement) : Prop :=
  ∀ parent ∈ parents, ∃ edited, insertInto inserted branch index parent = .ok edited

/-- Every statement that is noted has taken the new one. -/
theorem takes_of_insertionVisit
    (hReturned : insertionVisit semanticId inserted branch index depth statement =
      .returned result noted) : Takes inserted branch index noted := by
  induction depth generalizing statement result noted with
  | zero => cases hReturned
  | succ depth ih =>
      obtain ⟨current, bodies, below, hBodies, -, hCases⟩ := insertionVisit_returned hReturned
      obtain ⟨found, hFound, -, rfl⟩ := insertionBodies_returned (fun _ _ _ _ hVisit => ih hVisit)
        hBodies
      have hOne : ∀ body pairs, List.Forall₂ (fun (_ : ProgramStatement)
          (pair : Option ProgramStatement × List ProgramStatement) =>
            Takes inserted branch index pair.2) body pairs →
          ∀ pair ∈ pairs, Takes inserted branch index pair.2 :=
        fun _ _ hBody => forall_of_forall₂ (fun _ _ hPair => hPair) hBody
      have hAll := forall_of_forall₂ hOne hFound
      have hBelow : Takes inserted branch index (found.flatMap (List.flatMap Prod.snd)) := by
        intro parent hParent
        obtain ⟨pairs, hPairs, hParent⟩ := List.mem_flatMap.mp hParent
        obtain ⟨pair, hPair, hParent⟩ := List.mem_flatMap.mp hParent
        exact hAll pairs hPairs pair hPair parent hParent
      rcases hCases with ⟨-, -, rfl⟩ | ⟨-, hInto, rfl⟩
      · exact hBelow
      · exact List.forall_mem_cons.mpr ⟨⟨current, hInto⟩, hBelow⟩

/-- What raises is a statement under the address that lacks the branch. -/
theorem raised_insertionVisit {e : V2AuthoringError}
    (h : ¬ Lacks semanticId [statement] → Lacks semanticId [inserted])
    (hRaised : insertionVisit semanticId inserted branch index depth statement = .raised e) :
    ∃ parent ∈ addressedWithin semanticId [statement], parent.branch? branch = none := by
  induction depth generalizing statement e with
  | zero => cases hRaised
  | succ depth ih =>
      have hChildren {current : ProgramStatement} (hBodies : Visit.all
          (insertionBody semanticId inserted branch index depth) current.bodies = .raised e) :
          ∃ child ∈ current.children, insertionVisit semanticId inserted branch index depth child =
            .raised e := by
        obtain ⟨body, hBody, hRaised⟩ := Visit.all_eq_raised hBodies
        obtain ⟨child, hChild, hRaised⟩ := Visit.all_eq_raised (Visit.map_eq_raised.mp hRaised)
        exact ⟨child, List.mem_flatten.mpr ⟨body, hBody, hChild⟩, hRaised⟩
      have hBelow {child : ProgramStatement} (hChild : child ∈ statement.children)
          (hVisit : insertionVisit semanticId inserted branch index depth child = .raised e) :
          ∃ parent ∈ addressedWithin semanticId [statement], parent.branch? branch = none := by
        obtain ⟨parent, hParent, hBranch⟩ := ih (fun hSome =>
          h (not_lacks_of_child hChild hSome)) hVisit
        refine ⟨parent, ?_, hBranch⟩
        rw [addressedWithin_singleton, ← addressedWithin_flatMap statement.children]
        exact List.mem_append_right _ (List.mem_flatMap.mpr ⟨child, hChild, hParent⟩)
      rw [insertionVisit, visitStatement, Visit.bind_eq_raised] at hRaised
      by_cases hId : statement.semanticId = semanticId
      · have hLacks := h fun hNone => (lacks_singleton.mp hNone).1 hId
        cases hInto : insertInto inserted branch index statement with
        | error own =>
            refine ⟨statement, ?_, insertInto_error_iff.mp ⟨own, hInto⟩⟩
            rw [addressedWithin_singleton, if_pos hId]
            exact List.mem_cons_self
        | ok current =>
            rw [rewriteAddressed, if_pos hId, hInto] at hRaised
            rcases hRaised with hNone | ⟨value, noted, hValue, hRaised⟩
            · cases hNone
            · cases hValue
              obtain ⟨child, hChild, hVisit⟩ := hChildren (Visit.map_eq_raised.mp hRaised)
              obtain ⟨before, after, hOld, hNew⟩ := children_insertInto hInto
              rw [hNew, List.mem_append, List.mem_cons] at hChild
              rcases hChild with hBefore | rfl | hAfter
              · exact hBelow (hOld ▸ List.mem_append_left after hBefore) hVisit
              · obtain ⟨parent, hParent, -⟩ := ih (fun _ => hLacks) hVisit
                rw [addressedWithin_of_lacks hLacks] at hParent
                exact absurd hParent List.not_mem_nil
              · exact hBelow (hOld ▸ List.mem_append_right before hAfter) hVisit
      · rw [rewriteAddressed, if_neg hId] at hRaised
        rcases hRaised with hNone | ⟨value, noted, hValue, hRaised⟩
        · cases hNone
        · cases hValue
          obtain ⟨child, hChild, hVisit⟩ := hChildren (Visit.map_eq_raised.mp hRaised)
          exact hBelow hChild hVisit

end Places

section Programs

variable {semanticId : String} {inserted : ProgramStatement} {branch : ProgramBranch}
  {index : Option Nat} {depth : Nat} {program changed : SemanticProgram}

/-- Statements in a branch of the program, or of the statement with an id. -/
def SemanticProgram.branch? (program : SemanticProgram) :
    Option String → ProgramBranch → Option (List ProgramStatement)
  | none, .root => some program.statements
  | none, _ => none
  | some id, branch => (addressedWithin id program.statements).head?.bind
      (ProgramStatement.branch? branch)

theorem editInserted_eq (semanticId : String) (inserted : ProgramStatement)
    (branch : ProgramBranch) (index : Option Nat) (depth : Nat) (program : SemanticProgram) :
    editProgramStatement (insertInto inserted branch index) depth program semanticId =
      ((insertionBody semanticId inserted branch index depth program.statements).settled.map
        fun result => ((result.map fun found =>
          ({ program with statements := found.1 }, found.2)).bind
            (uniquelyAddressed semanticId)).map Prod.fst) := by
  rw [editProgramStatement, rewriteUnique, rewriteVisiting, Option.map_map, Option.map_map]
  rfl

/-- An edit that returns visited the program and noted one statement. -/
theorem editInserted_iff :
    editProgramStatement (insertInto inserted branch index) depth program semanticId =
        some (.ok changed) ↔ ∃ statements parent, insertionBody semanticId inserted branch index
          depth program.statements = .returned statements [parent] ∧
            changed = { program with statements := statements } := by
  rw [editInserted_eq]
  cases hBody : insertionBody semanticId inserted branch index depth program.statements with
  | endless => simp [Visit.settled]
  | raised e => simp [Visit.settled, Except.map, Except.bind]
  | returned statements noted =>
      cases noted with
      | nil => simp [Visit.settled, Except.map, Except.bind, uniquelyAddressed]
      | cons parent rest =>
          cases rest with
          | nil =>
              simp [Visit.settled, Except.map, Except.bind, uniquelyAddressed, eq_comm]
          | cons other rest => simp [Visit.settled, Except.map, Except.bind, uniquelyAddressed]

/-- Where dropping the statements under the address gives back others, removal does. -/
theorem removeProgramStatement_of_dropped {statements : List ProgramStatement}
    (hDropped : rewrittenStatements (dropAddress inserted.semanticId) statements =
      program.statements)
    (hAddressed : addressedStatements inserted.semanticId statements = [inserted]) :
    removeProgramStatement inserted.semanticId { program with statements := statements } =
      .ok (program, inserted) := by
  rw [removeProgramStatement, hAddressed]
  simp only
  rw [rewriteProgramStatements]
  have hSame : (fun statement : ProgramStatement =>
      if statement.semanticId = inserted.semanticId then none else some statement) =
      dropAddress inserted.semanticId := rfl
  rw [hSame, hDropped]

/-- The statements of a program, visited one by one. -/
theorem insertionProgram_returned {P : ProgramStatement → Option ProgramStatement →
      List ProgramStatement → Prop} {items statements noted : List ProgramStatement}
    (hEach : ∀ child ∈ items, ∀ result noted,
      insertionVisit semanticId inserted branch index depth child = .returned result noted →
        P child result noted)
    (hReturned : insertionBody semanticId inserted branch index depth items =
      .returned statements noted) :
    ∃ pairs : List (Option ProgramStatement × List ProgramStatement),
      List.Forall₂ (fun child pair => P child pair.1 pair.2) items pairs ∧
        statements = pairs.filterMap Prod.fst ∧ noted = pairs.flatMap Prod.snd := by
  have hSingle : Visit.all (insertionBody semanticId inserted branch index depth) [items] =
      .returned [statements] noted := by
    simp [Visit.all, hReturned, Visit.bind, Visit.map]
  have hFlat : ∀ child ∈ [items].flatten, ∀ result noted,
      insertionVisit semanticId inserted branch index depth child = .returned result noted →
        P child result noted := fun child hChild => hEach child (by simpa using hChild)
  obtain ⟨found, hFound, hResults, hNoted⟩ := insertionBodies_returned hFlat hSingle
  cases hFound with
  | cons hPairs hRest =>
      cases hRest
      exact ⟨_, hPairs, (List.cons.inj hResults).1, by simpa using hNoted⟩

/-- An address below which the new statement can be put: the new statement itself
has none of it, or the program has not. -/
def Separate (semanticId : String) (inserted : ProgramStatement) (program : SemanticProgram) :
    Prop :=
  ¬ Lacks semanticId program.statements → Lacks semanticId [inserted]

theorem Separate.of_child (h : Separate semanticId inserted program) {child : ProgramStatement}
    (hChild : child ∈ program.statements) (hSome : ¬ Lacks semanticId [child]) :
    Lacks semanticId [inserted] :=
  h fun hNone => hSome (lacks_iff.mp hNone child hChild)

/-- The statements that a returning visit of a program has noted. -/
theorem noted_program (h : Separate semanticId inserted program)
    {statements noted : List ProgramStatement}
    (hReturned : insertionBody semanticId inserted branch index depth program.statements =
      .returned statements noted) : noted = addressedWithin semanticId program.statements := by
  obtain ⟨pairs, hPairs, -, rfl⟩ := insertionProgram_returned (fun child hChild _ _ hVisit =>
    noted_insertionVisit (h.of_child hChild) hVisit) hReturned
  rw [← addressedWithin_flatMap]
  exact flatMap_of_forall₂ (fun _ _ hPair => hPair) hPairs

/-- Removing what an edit has inserted gives back the program. -/
theorem removed_of_edit (hSeparate : Separate semanticId inserted program)
    (hFresh : Lacks inserted.semanticId program.statements)
    (h : editProgramStatement (insertInto inserted branch index) depth program semanticId =
      some (.ok changed)) :
    removeProgramStatement inserted.semanticId changed = .ok (program, inserted) := by
  obtain ⟨statements, parent, hReturned, rfl⟩ := editInserted_iff.mp h
  have hNoted := noted_program hSeparate hReturned
  have hAddress : Lacks semanticId [inserted] := hSeparate fun hNone => by
    rw [addressedWithin_of_lacks hNone] at hNoted
    cases hNoted
  obtain ⟨pairs, hPairs, rfl, hOwn⟩ := insertionProgram_returned (fun child hChild _ _ hVisit =>
    restored hAddress (lacks_iff.mp hFresh child hChild) hVisit) hReturned
  obtain ⟨hKept, hCopies, hLength⟩ := restored_bodies (.cons hPairs .nil)
  simp only [List.map_cons, List.map_nil, List.cons.injEq, and_true, List.flatten_cons,
    List.flatten_nil, List.append_nil, (kept_of_lacks hFresh).1, (kept_of_lacks hFresh).2,
    List.flatMap_singleton, ← hOwn, List.length_singleton, Nat.add_zero] at hKept hCopies hLength
  refine removeProgramStatement_of_dropped hKept ?_
  obtain ⟨copy, hCopy⟩ := List.length_eq_one_iff.mp hLength
  rw [hCopy] at hCopies ⊢
  rw [hCopies copy (List.mem_singleton_self copy)]

/-- The edited branch holds the new statement at its position. -/
theorem branch_of_edit (hSeparate : Separate semanticId inserted program)
    (h : editProgramStatement (insertInto inserted branch index) depth program semanticId =
      some (.ok changed)) :
    ∃ items, program.branch? (some semanticId) branch = some items ∧
      changed.branch? (some semanticId) branch = some (insertedAt inserted index items) := by
  obtain ⟨statements, parent, hReturned, rfl⟩ := editInserted_iff.mp h
  have hNoted := noted_program hSeparate hReturned
  have hEach : ∀ child ∈ program.statements, ∀ result noted,
      insertionVisit semanticId inserted branch index depth child = .returned result noted →
        result.toList.flatMap (fun found => addressedWithin semanticId [found]) =
          (addressedWithin semanticId [child]).map (withInserted inserted branch index) ∧
        Takes inserted branch index noted := by
    intro child hChild result noted hVisit
    refine ⟨?_, takes_of_insertionVisit hVisit⟩
    refine addressedWithin_insertionVisit (hSeparate.of_child hChild) ?_ hVisit
    have hPart : List.Sublist (addressedWithin semanticId [child])
        (program.statements.map fun child => addressedWithin semanticId [child]).flatten :=
      List.sublist_flatten_of_mem (List.mem_map_of_mem hChild)
    rw [← List.flatMap_def, addressedWithin_flatMap, ← hNoted] at hPart
    exact hPart.length_le
  obtain ⟨pairs, hPairs, rfl, hOwn⟩ := insertionProgram_returned hEach hReturned
  have hNew : addressedWithin semanticId (pairs.filterMap Prod.fst) =
      [withInserted inserted branch index parent] := by
    rw [← addressedWithin_flatMap, flatMap_filterMap_fst,
      flatMap_of_forall₂ (fun _ _ hPair => hPair.1) hPairs, ← List.map_flatMap,
      addressedWithin_flatMap, ← hNoted]
    rfl
  have hTakes : ∃ edited, insertInto inserted branch index parent = .ok edited := by
    have hParent : parent ∈ pairs.flatMap Prod.snd := by
      rw [← hOwn]
      exact List.mem_singleton_self parent
    obtain ⟨pair, hPair, hParent⟩ := List.mem_flatMap.mp hParent
    exact forall_of_forall₂ (fun _ _ hPair => hPair.2) hPairs pair hPair parent hParent
  obtain ⟨edited, hInto⟩ := hTakes
  obtain ⟨before, items, after, -, -, hItems, hEdited⟩ := insertInto_ok hInto
  refine ⟨items, ?_, ?_⟩
  · rw [SemanticProgram.branch?, ← hNoted]
    exact hItems
  · rw [SemanticProgram.branch?, hNew, withInserted, hInto]
    exact hEdited

theorem passes_of_lacks {site : ProgramStatement → Option Nat} {statement : ProgramStatement}
    (h : Lacks semanticId [statement]) : statement.arrival semanticId site = .passes := by
  induction statement using ProgramStatement.children_induction with
  | h statement ih =>
      obtain ⟨hId, hChildren⟩ := lacks_singleton.mp h
      refine arrival_passes_iff.mpr ⟨hId, arrivals_eq_passes.mpr fun child hChild => ?_⟩
      exact ih child hChild (lacks_iff.mp hChildren child hChild)

/-- An edit below a separate address comes to an end. -/
theorem edit_ends (hSeparate : Separate semanticId inserted program) :
    ∃ depth result, editProgramStatement (insertInto inserted branch index) depth program
      semanticId = some result := by
  have hEdit := (ProgramEdit.insert inserted (some semanticId) branch index).grafts
  have hEnds : ∃ depth, endings semanticId
      (ProgramEdit.insert inserted (some semanticId) branch index).change depth
        program.statements ≠ .endless := by
    rw [ends_iff hEdit]
    rintro ⟨hArrives, hAgain⟩
    by_cases hLacks : Lacks semanticId program.statements
    · rw [arrivals_eq_passes.mpr fun statement hStatement =>
        passes_of_lacks (lacks_iff.mp hLacks statement hStatement)] at hArrives
      cases hArrives
    · have hPasses : ∀ statement ∈ (ProgramEdit.insert inserted (some semanticId) branch
          index).grafted, statement.arrival semanticId
            (ProgramEdit.insert inserted (some semanticId) branch index).site = .passes := by
        intro statement hStatement
        rw [List.mem_singleton.mp hStatement]
        exact passes_of_lacks (hSeparate hLacks)
      rw [arrivals_eq_passes.mpr hPasses] at hAgain
      cases hAgain
  obtain ⟨depth, hDepth⟩ := hEnds
  have hSome : (ProgramEdit.insert inserted (some semanticId) branch index).apply depth program ≠
      none := fun hNone => hDepth ((apply_eq_none_iff depth program rfl).mp hNone)
  obtain ⟨result, hResult⟩ := Option.ne_none_iff_exists'.mp hSome
  exact ⟨depth, result, hResult⟩

/-- An edit that ends succeeds where the address is one statement that has the branch. -/
theorem edit_ok_of_branch (hSeparate : Separate semanticId inserted program)
    (hUnique : (addressedWithin semanticId program.statements).length ≤ 1)
    {items : List ProgramStatement}
    (hBranch : program.branch? (some semanticId) branch = some items)
    {result : Except V2AuthoringError SemanticProgram}
    (h : editProgramStatement (insertInto inserted branch index) depth program semanticId =
      some result) : ∃ changed, result = .ok changed := by
  obtain ⟨parent, hParent, hItems⟩ : ∃ parent, addressedWithin semanticId program.statements =
      [parent] ∧ parent.branch? branch = some items := by
    rw [SemanticProgram.branch?] at hBranch
    obtain ⟨parent, hHead, hItems⟩ := Option.bind_eq_some_iff.mp hBranch
    obtain ⟨rest, hRest⟩ := List.head?_eq_some_iff.mp hHead
    rw [hRest, List.length_cons] at hUnique
    have hNone : rest = [] := List.length_eq_zero_iff.mp (by omega)
    exact ⟨parent, by rw [hRest, hNone], hItems⟩
  cases hBody : insertionBody semanticId inserted branch index depth program.statements with
  | endless =>
      rw [editInserted_eq, hBody] at h
      cases h
  | raised e =>
      obtain ⟨child, hChild, hRaised⟩ := Visit.all_eq_raised (Visit.map_eq_raised.mp hBody)
      obtain ⟨refusing, hRefusing, hNone⟩ :=
        raised_insertionVisit (hSeparate.of_child hChild) hRaised
      have hSame : refusing ∈ addressedWithin semanticId program.statements := by
        rw [← addressedWithin_flatMap]
        exact List.mem_flatMap.mpr ⟨child, hChild, hRefusing⟩
      rw [hParent, List.mem_singleton] at hSame
      rw [hSame, hItems] at hNone
      cases hNone
  | returned statements noted =>
      have hNoted := noted_program hSeparate hBody
      rw [hParent] at hNoted
      rw [hNoted] at hBody
      have hOk := editInserted_iff.mpr ⟨statements, parent, hBody, rfl⟩
      rw [hOk] at h
      cases h
      exact ⟨_, rfl⟩

end Programs

section Removals

variable {semanticId : String} {statement removed : ProgramStatement}
  {statements : List ProgramStatement}

/-- A statement without the ones below it. -/
def ProgramStatement.bare (statement : ProgramStatement) : ProgramStatement :=
  statement.withBodies (statement.bodies.map fun _ => [])

/-- Statements in order, each without the ones below it. -/
def bareStatements (statements : List ProgramStatement) : List ProgramStatement :=
  (programStatements statements).map ProgramStatement.bare

theorem bareStatements_append (statements rest : List ProgramStatement) :
    bareStatements (statements ++ rest) = bareStatements statements ++ bareStatements rest := by
  rw [bareStatements, programStatements_append, List.map_append, bareStatements, bareStatements]

theorem bareStatements_cons (statement : ProgramStatement) (rest : List ProgramStatement) :
    bareStatements (statement :: rest) = bareStatements [statement] ++ bareStatements rest := by
  rw [← List.singleton_append, bareStatements_append]

theorem bareStatements_singleton (statement : ProgramStatement) :
    bareStatements [statement] = statement.bare :: bareStatements statement.children := by
  rw [bareStatements, programStatements_eq_flatMap, List.flatMap_singleton, flattened_eq,
    List.map_cons, bareStatements]

theorem bare_withBodies {bodies : List (List ProgramStatement)}
    (h : bodies.length = statement.bodies.length) :
    (statement.withBodies bodies).bare = statement.bare := by
  have hMap : (bodies.map fun _ => ([] : List ProgramStatement)) =
      statement.bodies.map fun _ => [] := by
    rw [List.map_const', List.map_const', h]
  rw [ProgramStatement.bare, bodies_withBodies h, hMap, withBodies_withBodies h (by simp),
    ProgramStatement.bare]

/-- Nothing is addressed by a removal where the address does not occur, and there only. -/
theorem lacks_of_addressed (h : statement.addressed semanticId = []) :
    Lacks semanticId [statement] := by
  induction statement using ProgramStatement.children_induction with
  | h statement ih =>
      by_cases hId : statement.semanticId = semanticId
      · rw [addressed_of_eq hId] at h
        cases h
      · rw [addressed_of_ne hId, addressedStatements_eq, List.flatMap_eq_nil_iff] at h
        exact lacks_singleton.mpr ⟨hId, lacks_iff.mpr fun child hChild =>
          ih child hChild (h child hChild)⟩

theorem children_rewritten (statement : ProgramStatement) :
    (statement.withBodies (statement.bodies.map
      (rewrittenStatements (dropAddress semanticId)))).children =
      rewrittenStatements (dropAddress semanticId) statement.children := by
  rw [ProgramStatement.children, bodies_withBodies (by simp), ProgramStatement.children,
    rewrittenStatements_eq, List.filterMap_flatten]
  congr 2
  funext body
  exact rewrittenStatements_eq _ body

/-- A removal takes the addressed statement out, and what is inside it. -/
def TakesOut (semanticId : String) (statements : List ProgramStatement)
    (removed : ProgramStatement) : Prop :=
  ∃ before after, bareStatements statements = before ++ bareStatements [removed] ++ after ∧
    bareStatements (rewrittenStatements (dropAddress semanticId) statements) = before ++ after

theorem takesOut_of_each (hEach : ∀ statement ∈ statements,
    statement.addressed semanticId = [removed] → TakesOut semanticId [statement] removed)
    (h : addressedStatements semanticId statements = [removed]) :
    TakesOut semanticId statements removed := by
  induction statements with
  | nil => cases h
  | cons statement rest ih =>
      have hRest := ih fun other hOther => hEach other (List.mem_cons_of_mem statement hOther)
      rw [addressedStatements, List.append_eq_singleton_iff] at h
      have hDropped : rewrittenStatements (dropAddress semanticId) (statement :: rest) =
          rewrittenStatements (dropAddress semanticId) [statement] ++
            rewrittenStatements (dropAddress semanticId) rest := by
        rw [rewrittenStatements_eq, rewrittenStatements_eq, rewrittenStatements_eq,
          ← List.filterMap_append, List.singleton_append]
      rcases h with ⟨hNone, hLater⟩ | ⟨hHere, hNone⟩
      · obtain ⟨before, after, hAll, hLeft⟩ := hRest hLater
        have hKept := (dropped_of_lacks (lacks_of_addressed hNone)).1
        refine ⟨bareStatements [statement] ++ before, after, ?_, ?_⟩
        · rw [bareStatements_cons, hAll]
          simp
        · rw [hDropped, bareStatements_append, hLeft, rewrittenStatements_eq]
          simp [hKept]
      · obtain ⟨before, after, hAll, hLeft⟩ := hEach statement List.mem_cons_self hHere
        have hKept : rewrittenStatements (dropAddress semanticId) rest = rest := by
          rw [addressedStatements_eq, List.flatMap_eq_nil_iff] at hNone
          exact (dropped_statements (lacks_iff.mpr fun other hOther =>
            lacks_of_addressed (hNone other hOther))).1
        refine ⟨before, after ++ bareStatements rest, ?_, ?_⟩
        · rw [bareStatements_cons, hAll, List.append_assoc]
        · rw [hDropped, bareStatements_append, hLeft, hKept, List.append_assoc]

theorem takesOut (h : statement.addressed semanticId = [removed]) :
    TakesOut semanticId [statement] removed := by
  induction statement using ProgramStatement.children_induction with
  | h statement ih =>
      by_cases hId : statement.semanticId = semanticId
      · rw [addressed_of_eq hId] at h
        cases h
        refine ⟨[], [], by simp, ?_⟩
        rw [rewrittenStatements_eq, List.filterMap_cons_none (rewritten_of_eq hId)]
        rfl
      · rw [addressed_of_ne hId] at h
        obtain ⟨before, after, hAll, hLeft⟩ := takesOut_of_each ih h
        refine ⟨statement.bare :: before, after, ?_, ?_⟩
        · rw [bareStatements_singleton, hAll]
          rfl
        · rw [rewrittenStatements_eq, List.filterMap_cons_some (rewritten_of_ne hId),
            List.filterMap_nil, bareStatements_singleton, children_rewritten, hLeft,
            bare_withBodies (by simp)]
          rfl

end Removals

section Algebra

variable {program changed moved without : SemanticProgram} {inserted removed : ProgramStatement}
  {parent : Option String} {branch : ProgramBranch} {index : Option Nat} {depth : Nat}
  {semanticId : String}

/-- No two statements of a program have one id. -/
def SemanticProgram.UniqueIds (program : SemanticProgram) : Prop :=
  ((programStatements program.statements).map ProgramStatement.semanticId).Nodup

/-- No id of a statement, or of one inside it, is used in the program. -/
def FreshFor (program : SemanticProgram) (statement : ProgramStatement) : Prop :=
  ∀ own ∈ programStatements [statement], ∀ other ∈ programStatements program.statements,
    own.semanticId ≠ other.semanticId

theorem FreshFor.lacks (h : FreshFor program inserted) :
    Lacks inserted.semanticId program.statements := fun other hOther hSame =>
  h inserted (mem_programStatements (List.mem_singleton_self inserted)) other hOther hSame.symm

theorem FreshFor.separate (h : FreshFor program inserted) (semanticId : String) :
    Separate semanticId inserted program := by
  intro hSome own hOwn hId
  refine hSome fun other hOther hSame => ?_
  exact h own hOwn other hOther (hId.trans hSame.symm)

theorem SemanticProgram.UniqueIds.addressed_le_one (h : program.UniqueIds) (semanticId : String) :
    (addressedWithin semanticId program.statements).length ≤ 1 := by
  have hCount := List.nodup_iff_count_le_one.mp h semanticId
  rw [List.count_eq_countP, List.countP_map, List.countP_eq_length_filter] at hCount
  have hSame : (programStatements program.statements).filter
      ((· == semanticId) ∘ ProgramStatement.semanticId) =
        addressedWithin semanticId program.statements := by
    rw [addressedWithin]
    congr
  rw [hSame] at hCount
  exact hCount

theorem dropped_insertedAt {items : List ProgramStatement}
    (h : Lacks inserted.semanticId items) :
    rewrittenStatements (dropAddress inserted.semanticId) (insertedAt inserted index items) =
        items ∧
      addressedStatements inserted.semanticId (insertedAt inserted index items) = [inserted] := by
  rw [← List.take_append_drop (insertPosition index items) items, lacks_append] at h
  obtain ⟨hBefore, hBeforeNone⟩ := dropped_statements h.1
  obtain ⟨hAfter, hAfterNone⟩ := dropped_statements h.2
  have hSelf : inserted.rewritten (dropAddress inserted.semanticId) = none := rewritten_of_eq rfl
  rw [rewrittenStatements_eq] at hBefore hAfter
  rw [addressedStatements_eq] at hBeforeNone hAfterNone
  rw [rewrittenStatements_eq, addressedStatements_eq, insertedAt, List.filterMap_append,
    List.filterMap_cons_none hSelf, hBefore, hAfter, List.take_append_drop, List.flatMap_append,
    List.flatMap_cons, hBeforeNone, hAfterNone, addressed_of_eq rfl]
  exact ⟨rfl, rfl⟩

/-- An insertion of a fresh statement comes to an end. -/
theorem insert_ends (hFresh : FreshFor program inserted) (parent : Option String)
    (branch : ProgramBranch) (index : Option Nat) :
    ∃ depth result, insertProgramStatement depth program inserted parent branch index =
      some result := by
  cases parent with
  | some semanticId => exact edit_ends (hFresh.separate semanticId)
  | none =>
      refine ⟨0, ?_⟩
      rw [insertProgramStatement]
      split
      · exact ⟨_, rfl⟩
      · exact ⟨_, rfl⟩

/-- What a successful insertion of a fresh statement has done. -/
structure Inserted (program : SemanticProgram) (inserted : ProgramStatement)
    (parent : Option String) (branch : ProgramBranch) (index : Option Nat)
    (changed : SemanticProgram) : Prop where
  undone : removeProgramStatement inserted.semanticId changed = .ok (program, inserted)
  placed : ∃ items, program.branch? parent branch = some items ∧
    changed.branch? parent branch = some (insertedAt inserted index items)

theorem insert_ok (hFresh : FreshFor program inserted)
    (h : insertProgramStatement depth program inserted parent branch index =
      some (.ok changed)) : Inserted program inserted parent branch index changed := by
  cases parent with
  | some semanticId =>
      exact ⟨removed_of_edit (hFresh.separate semanticId) hFresh.lacks h,
        branch_of_edit (hFresh.separate semanticId) h⟩
  | none =>
      rw [insertProgramStatement] at h
      split at h
      · rename_i hRoot
        cases h
        subst hRoot
        obtain ⟨hDropped, hAddressed⟩ := dropped_insertedAt hFresh.lacks
        exact ⟨removeProgramStatement_of_dropped hDropped hAddressed, program.statements, rfl, rfl⟩
      · cases h

/-- An insertion of a fresh statement succeeds exactly in a branch the program has. -/
theorem insert_ok_iff (hUnique : program.UniqueIds) (hFresh : FreshFor program inserted)
    {result : Except V2AuthoringError SemanticProgram}
    (h : insertProgramStatement depth program inserted parent branch index = some result) :
    (∃ changed, result = .ok changed) ↔ (program.branch? parent branch).isSome = true := by
  constructor
  · rintro ⟨changed, rfl⟩
    obtain ⟨items, hItems, -⟩ := (insert_ok hFresh h).placed
    rw [hItems]
    rfl
  · intro hBranch
    obtain ⟨items, hItems⟩ := Option.isSome_iff_exists.mp hBranch
    cases parent with
    | some semanticId =>
        exact edit_ok_of_branch (hFresh.separate semanticId) (hUnique.addressed_le_one semanticId)
          hItems h
    | none =>
        cases branch with
        | root =>
            cases h
            exact ⟨_, rfl⟩
        | _ => cases hItems

/-- A removal that returns found one statement under the address. -/
theorem addressed_of_removal
    (h : removeProgramStatement semanticId program = .ok (without, removed)) :
    addressedStatements semanticId program.statements = [removed] := by
  rw [removeProgramStatement] at h
  split at h
  · cases h
  · rename_i only hOnly
    cases h
    exact hOnly
  · cases h

/-- A program is another one with a statement in it, and what is inside that: all
other statements stand in the same order. -/
def IsWith (program without : SemanticProgram) (removed : ProgramStatement) : Prop :=
  ∃ before after, bareStatements program.statements = before ++ bareStatements [removed] ++ after ∧
    bareStatements without.statements = before ++ after

theorem isWith_of_remove (h : removeProgramStatement semanticId program = .ok (without, removed)) :
    IsWith program without removed := by
  have hWithout : without = rewriteProgramStatements (dropAddress semanticId) program :=
    removeProgramStatement_ok h
  rw [hWithout]
  exact takesOut_of_each (fun _ _ => takesOut) (addressed_of_removal h)

theorem IsWith.perm (h : IsWith program without removed) (hMoved : IsWith moved without removed) :
    (bareStatements moved.statements).Perm (bareStatements program.statements) := by
  have hFront {other : SemanticProgram} (hOther : IsWith other without removed) :
      (bareStatements other.statements).Perm
        (bareStatements [removed] ++ bareStatements without.statements) := by
    obtain ⟨before, after, hAll, hLeft⟩ := hOther
    rw [hAll, hLeft, ← List.append_assoc]
    exact List.perm_append_comm.append_right after
  exact (hFront hMoved).trans (hFront h).symm

theorem semanticId_bare (statement : ProgramStatement) :
    statement.bare.semanticId = statement.semanticId :=
  semanticId_withBodies statement _

theorem ids_bareStatements (statements : List ProgramStatement) :
    (bareStatements statements).map ProgramStatement.semanticId =
      (programStatements statements).map ProgramStatement.semanticId := by
  rw [bareStatements, List.map_map]
  exact List.map_congr_left fun statement _ => semanticId_bare statement

/-- What is taken out of a program with unique ids is fresh for the rest of it. -/
theorem IsWith.fresh (h : IsWith program without removed) (hUnique : program.UniqueIds) :
    without.UniqueIds ∧ FreshFor without removed := by
  obtain ⟨before, after, hAll, hLeft⟩ := h
  rw [SemanticProgram.UniqueIds, ← ids_bareStatements, hAll, List.map_append, List.map_append,
    ids_bareStatements [removed]] at hUnique
  have hApart := List.nodup_append.mp hUnique
  have hInner := List.nodup_append.mp hApart.1
  refine ⟨?_, ?_⟩
  · rw [SemanticProgram.UniqueIds, ← ids_bareStatements, hLeft, List.map_append]
    refine List.nodup_append.mpr ⟨hInner.1, hApart.2.1, fun id hBefore id' hAfter => ?_⟩
    exact hApart.2.2 id (List.mem_append_left _ hBefore) id' hAfter
  · intro own hOwn other hOther hSame
    have hOwnId := List.mem_map_of_mem (f := ProgramStatement.semanticId) hOwn
    have hOtherId := List.mem_map_of_mem (f := ProgramStatement.semanticId) hOther
    rw [← ids_bareStatements, hLeft, List.map_append, List.mem_append] at hOtherId
    rcases hOtherId with hBefore | hAfter
    · exact hInner.2.2 _ hBefore _ hOwnId hSame.symm
    · exact hApart.2.2 _ (List.mem_append_right _ hOwnId) _ hAfter hSame

/-- What a successful move has done: the moved statement, with what is inside it,
stands at its position in the branch, and the rest is as before. -/
structure Moved (program : SemanticProgram) (semanticId : String) (parent : Option String)
    (branch : ProgramBranch) (index : Option Nat) (moved without : SemanticProgram)
    (removed : ProgramStatement) : Prop where
  taken : removeProgramStatement semanticId program = .ok (without, removed)
  left : removeProgramStatement semanticId moved = .ok (without, removed)
  source : IsWith program without removed
  result : IsWith moved without removed
  rearranged : (bareStatements moved.statements).Perm (bareStatements program.statements)
  placed : ∃ items, without.branch? parent branch = some items ∧
    moved.branch? parent branch = some (insertedAt removed index items)

theorem move_ok (hUnique : program.UniqueIds)
    (h : moveProgramStatement depth program semanticId parent branch index = some (.ok moved)) :
    ∃ without removed, Moved program semanticId parent branch index moved without removed := by
  rw [moveProgramStatement] at h
  cases hRemove : removeProgramStatement semanticId program with
  | error e =>
      rw [hRemove] at h
      cases h
  | ok taken =>
      obtain ⟨without, removed⟩ := taken
      rw [hRemove] at h
      have hSource := isWith_of_remove hRemove
      obtain ⟨-, hFresh⟩ := hSource.fresh hUnique
      have hInserted := insert_ok hFresh h
      have hId : removed.semanticId = semanticId := by
        have hMem : removed ∈ addressedStatements semanticId program.statements := by
          rw [addressed_of_removal hRemove]
          exact List.mem_singleton_self removed
        rw [addressedStatements_eq] at hMem
        obtain ⟨statement, -, hStatement⟩ := List.mem_flatMap.mp hMem
        exact semanticId_of_addressed hStatement
      have hLeft := hInserted.undone
      rw [hId] at hLeft
      have hResult := isWith_of_remove hLeft
      exact ⟨without, removed, hRemove, hLeft, hSource, hResult, hSource.perm hResult,
        hInserted.placed⟩

/-- The program that is held after an operation: an error leaves it as it is. -/
def SemanticProgram.after (program : SemanticProgram)
    (outcome : Option (Except V2AuthoringError SemanticProgram)) : SemanticProgram :=
  match outcome with
  | some (.ok changed) => changed
  | _ => program

/-- Operations that put statements into a program, take them out or move them. -/
inductive StatementOperation where
  | insert (statement : ProgramStatement) (parent : Option String) (branch : ProgramBranch)
    (index : Option Nat)
  | remove (semanticId : String)
  | move (semanticId : String) (parent : Option String) (branch : ProgramBranch)
    (index : Option Nat)

def StatementOperation.outcome (depth : Nat) (program : SemanticProgram) :
    StatementOperation → Option (Except V2AuthoringError SemanticProgram)
  | .insert statement parent branch index =>
      insertProgramStatement depth program statement parent branch index
  | .remove semanticId => some ((removeProgramStatement semanticId program).map Prod.fst)
  | .move semanticId parent branch index =>
      moveProgramStatement depth program semanticId parent branch index

/-- Insertion is undone by removal, a move keeps all statements and the order of the
others, and an operation that fails changes nothing. -/
theorem statement_algebra (program : SemanticProgram) (hUnique : program.UniqueIds) :
    (∀ inserted parent branch index, FreshFor program inserted →
      (∃ depth result, insertProgramStatement depth program inserted parent branch index =
        some result) ∧
      ∀ depth result, insertProgramStatement depth program inserted parent branch index =
          some result →
        ((∃ changed, result = .ok changed) ↔ (program.branch? parent branch).isSome = true) ∧
        ∀ changed, result = .ok changed →
          removeProgramStatement inserted.semanticId changed = .ok (program, inserted)) ∧
    (∀ depth semanticId parent branch index moved,
      moveProgramStatement depth program semanticId parent branch index = some (.ok moved) →
        ∃ without removed, Moved program semanticId parent branch index moved without removed) ∧
    ∀ (operation : StatementOperation) depth e, operation.outcome depth program = some (.error e) →
      program.after (operation.outcome depth program) = program := by
  refine ⟨fun inserted parent branch index hFresh => ?_, fun depth semanticId parent branch index
    moved hMoved => move_ok hUnique hMoved, fun operation depth e hError => ?_⟩
  · refine ⟨insert_ends hFresh parent branch index, fun depth result hResult => ?_⟩
    refine ⟨insert_ok_iff hUnique hFresh hResult, ?_⟩
    rintro changed rfl
    exact (insert_ok hFresh hResult).undone
  · rw [hError]
    rfl

/-- Two ways into cash. -/
def cashTwice : SemanticProgram :=
  .daily [.allocate (.sole "first" .cash), .allocate (.sole "second" .cash)]

theorem cashTwice_unique : cashTwice.UniqueIds := by
  unfold SemanticProgram.UniqueIds
  decide

/-- The program with its statements the other way round. -/
def cashSwapped : SemanticProgram :=
  .daily [.allocate (.sole "second" .cash), .allocate (.sole "first" .cash)]

theorem cashTwice_moved : ∃ without removed,
    Moved cashTwice "first" none .root (some 1) cashSwapped without removed :=
  (statement_algebra cashTwice cashTwice_unique).2.1 0 "first" none .root (some 1) cashSwapped rfl

/-- An index behind the end of a branch puts the statement at its end. -/
theorem cashTwice_moved_to_end :
    cashTwice.UniqueIds ∧
      moveProgramStatement 0 cashTwice "first" none .root (some 5) = some (.ok cashSwapped) ∧
      (cashSwapped.statements[5]?).isNone = true :=
  ⟨cashTwice_unique, rfl, rfl⟩

end Algebra

end RuleTrade
