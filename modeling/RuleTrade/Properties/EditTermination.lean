import RuleTrade.Authoring.StatementEdits
import RuleTrade.Strategy.Fragments

/-! Which edits of a Program come to an end. -/

namespace RuleTrade

open Library

section Induction

variable {P : ProgramStatement → Prop}

/-- Induction over statements: a statement follows from its children. -/
theorem ProgramStatement.children_induction
    (h : ∀ statement, (∀ child ∈ statement.children, P child) → P statement)
    (statement : ProgramStatement) : P statement := by
  have hAll (statements : List ProgramStatement) : ∀ statement ∈ statements, P statement := by
    induction statements using ProgramStatement.list_induction with
    | hNil => exact fun _ hNone => absurd hNone List.not_mem_nil
    | hCons head rest hBodies hRest =>
        have hHead : P head := h head fun child hChild => by
          obtain ⟨body, hBody, hMem⟩ := List.mem_flatten.mp hChild
          exact hBodies body hBody child hMem
        exact List.forall_mem_cons.mpr ⟨hHead, hRest⟩
  exact hAll [statement] statement (List.mem_singleton_self statement)

end Induction

section Arrivals

/-- What a visit comes to first among the statements it was given: nothing, a
statement where the edit puts others, or one that the edit refuses. -/
inductive Arrival where
  | passes
  | arrives
  | refused
  deriving DecidableEq, Repr

def Arrival.andThen : Arrival → Arrival → Arrival
  | .passes, next => next
  | arrival, _ => arrival

/-- At a statement where others are put, after the children that come before them. -/
def Arrival.orArrives : Arrival → Arrival
  | .refused => .refused
  | _ => .arrives

variable (semanticId : String) (site : ProgramStatement → Option Nat)

/-- At a statement, from what its first children come to. -/
def arrivalAt (statement : ProgramStatement) (below : Nat → Arrival) : Arrival :=
  if statement.semanticId = semanticId then
    match site statement with
    | none => .refused
    | some before => (below before).orArrives
  else below statement.children.length

mutual

/-- What the visit of a statement comes to first. Under the address, `site` says
how many children are visited before the new statements. -/
def ProgramStatement.arrival : ProgramStatement → Arrival
  | .control head thenStatements otherwiseStatements =>
      arrivalAt semanticId site (.control head thenStatements otherwiseStatements) fun before =>
        (arrivals before thenStatements).andThen
          (arrivals (before - thenStatements.length) otherwiseStatements)
  | .onEvent id event body =>
      arrivalAt semanticId site (.onEvent id event body) fun before => arrivals before body
  | .select s => arrivalAt semanticId site (.select s) fun _ => .passes
  | .allocate s => arrivalAt semanticId site (.allocate s) fun _ => .passes
  | .transition id t => arrivalAt semanticId site (.transition id t) fun _ => .passes
  | .rememberValue s => arrivalAt semanticId site (.rememberValue s) fun _ => .passes
  | .guardedAllocation s => arrivalAt semanticId site (.guardedAllocation s) fun _ => .passes
  | .unresolved s => arrivalAt semanticId site (.unresolved s) fun _ => .passes

/-- What the visit of the first statements of a list comes to first. -/
def arrivals : Nat → List ProgramStatement → Arrival
  | _, [] => .passes
  | 0, _ :: _ => .passes
  | before + 1, statement :: rest => statement.arrival.andThen (arrivals before rest)

end

variable {semanticId site}

theorem arrivals_cons (n : Nat) (statement : ProgramStatement) (rest : List ProgramStatement) :
    arrivals semanticId site (n + 1) (statement :: rest) =
      (statement.arrival semanticId site).andThen (arrivals semanticId site n rest) := by
  rw [arrivals]

theorem arrivals_zero (statements : List ProgramStatement) :
    arrivals semanticId site 0 statements = .passes := by
  cases statements <;> rw [arrivals]

theorem arrivals_nil (n : Nat) : arrivals semanticId site n [] = .passes := by
  rw [arrivals]

theorem Arrival.andThen_assoc (first second third : Arrival) :
    (first.andThen second).andThen third = first.andThen (second.andThen third) := by
  cases first <;> rfl

theorem arrivals_append (n : Nat) (statements others : List ProgramStatement) :
    arrivals semanticId site n (statements ++ others) =
      (arrivals semanticId site n statements).andThen
        (arrivals semanticId site (n - statements.length) others) := by
  induction statements generalizing n with
  | nil =>
      rw [arrivals_nil]
      rfl
  | cons statement rest ih =>
      cases n with
      | zero =>
          rw [List.cons_append, arrivals_zero, arrivals_zero, Nat.zero_sub, arrivals_zero]
          rfl
      | succ n =>
          rw [List.cons_append, arrivals_cons, arrivals_cons, ih, Arrival.andThen_assoc,
            List.length_cons, Nat.add_sub_add_right]

theorem arrivals_take (n : Nat) (statements : List ProgramStatement) :
    arrivals semanticId site n statements =
      arrivals semanticId site (statements.take n).length (statements.take n) := by
  induction statements generalizing n with
  | nil => rw [List.take_nil, arrivals_nil, arrivals_nil]
  | cons statement rest ih =>
      cases n with
      | zero => rw [List.take_zero, arrivals_zero, arrivals_nil]
      | succ n => rw [List.take_succ_cons, List.length_cons, arrivals_cons, arrivals_cons, ← ih]

theorem ProgramStatement.arrival_eq (statement : ProgramStatement) :
    statement.arrival semanticId site = arrivalAt semanticId site statement fun before =>
      arrivals semanticId site before statement.children := by
  cases statement with
  | control head thenStatements otherwiseStatements =>
      rw [arrival]
      congr
      funext before
      rw [children, bodies, List.flatten_cons, List.flatten_cons, List.flatten_nil,
        List.append_nil, arrivals_append]
  | onEvent id event body =>
      rw [arrival]
      congr
      funext before
      rw [children, bodies, List.flatten_cons, List.flatten_nil, List.append_nil]
  | _ => rfl

end Arrivals

section Endings

variable (semanticId : String)
  (change : ProgramStatement → Except V2AuthoringError (Option ProgramStatement))

/-- How the visit of statements ends at a depth. -/
def endings (depth : Nat) (statements : List ProgramStatement) : Visit.Ending :=
  (Visit.all (visitStatement semanticId change depth) statements).ending

variable {semanticId change} {depth : Nat}

theorem endings_cons (statement : ProgramStatement) (rest : List ProgramStatement) :
    endings semanticId change depth (statement :: rest) =
      (visitStatement semanticId change depth statement).ending.andThen
        (endings semanticId change depth rest) :=
  Visit.ending_all_cons _ _ _

theorem endings_append (statements others : List ProgramStatement) :
    endings semanticId change depth (statements ++ others) =
      (endings semanticId change depth statements).andThen
        (endings semanticId change depth others) :=
  Visit.ending_all_append _ _ _

theorem ending_bodies (current : ProgramStatement) :
    (Visit.all (fun body => (Visit.all (visitStatement semanticId change depth) body).map
      (List.filterMap id)) current.bodies).ending =
      endings semanticId change depth current.children :=
  Visit.ending_all_flatten (fun _ => Visit.ending_map _ _) _

/-- A statement elsewhere ends as its children do. -/
theorem ending_visit_of_ne {statement : ProgramStatement} (h : statement.semanticId ≠ semanticId) :
    (visitStatement semanticId change (depth + 1) statement).ending =
      endings semanticId change depth statement.children := by
  have hRewritten : rewriteAddressed semanticId change statement =
      .returned (some statement) [] := by
    rw [rewriteAddressed, if_neg h]
  rw [visitStatement, Visit.ending_bind_of_returned hRewritten, Visit.ending_map, ending_bodies]

theorem rewriteAddressed_of_eq {statement : ProgramStatement} {current : Option ProgramStatement}
    (h : statement.semanticId = semanticId) (hChange : change statement = .ok current) :
    rewriteAddressed semanticId change statement = .returned current [statement] := by
  rw [rewriteAddressed, if_pos h, hChange]

theorem ending_visit_of_error {statement : ProgramStatement} {e : V2AuthoringError}
    (h : statement.semanticId = semanticId) (hChange : change statement = .error e) :
    (visitStatement semanticId change (depth + 1) statement).ending = .raised := by
  have hRewritten : rewriteAddressed semanticId change statement = .raised e := by
    rw [rewriteAddressed, if_pos h, hChange]
  rw [visitStatement, hRewritten]
  rfl

theorem ending_visit_of_none {statement : ProgramStatement}
    (h : statement.semanticId = semanticId) (hChange : change statement = .ok none) :
    (visitStatement semanticId change (depth + 1) statement).ending = .returned := by
  rw [visitStatement, Visit.ending_bind_of_returned (rewriteAddressed_of_eq h hChange)]
  rfl

theorem ending_visit_of_some {statement current : ProgramStatement}
    (h : statement.semanticId = semanticId) (hChange : change statement = .ok (some current)) :
    (visitStatement semanticId change (depth + 1) statement).ending =
      endings semanticId change depth current.children := by
  rw [visitStatement, Visit.ending_bind_of_returned (rewriteAddressed_of_eq h hChange),
    Visit.ending_map, ending_bodies]

end Endings

section Grafts

/-- The edit puts statements among the children of a statement, after as many of
them as `site` says, and refuses a statement that has no such place. -/
structure Grafts (change : ProgramStatement → Except V2AuthoringError (Option ProgramStatement))
    (site : ProgramStatement → Option Nat) (grafted : List ProgramStatement) : Prop where
  refused : ∀ statement, site statement = none → ∃ e, change statement = .error e
  placed : ∀ statement before, site statement = some before →
    (change statement = .ok none ∧ grafted = [] ∧ before = 0) ∨
    ∃ current, change statement = .ok (some current) ∧ current.children =
      statement.children.take before ++ grafted ++ statement.children.drop before

variable {semanticId : String} {site : ProgramStatement → Option Nat}
  {change : ProgramStatement → Except V2AuthoringError (Option ProgramStatement)}
  {grafted : List ProgramStatement} {depth : Nat}

/-- The endings that an arrival allows. -/
theorem arrival_passes_iff {statement : ProgramStatement} :
    statement.arrival semanticId site = .passes ↔ statement.semanticId ≠ semanticId ∧
      arrivals semanticId site statement.children.length statement.children = .passes := by
  rw [statement.arrival_eq, arrivalAt]
  by_cases hId : statement.semanticId = semanticId
  · rw [if_pos hId]
    cases site statement with
    | none => simp [hId]
    | some before =>
        cases hBelow : arrivals semanticId site before statement.children <;>
          simp [hId, hBelow, Arrival.orArrives]
  · rw [if_neg hId]
    simp [hId]

theorem arrival_of_ne {statement : ProgramStatement} (h : statement.semanticId ≠ semanticId) :
    statement.arrival semanticId site =
      arrivals semanticId site statement.children.length statement.children := by
  rw [statement.arrival_eq, arrivalAt, if_neg h]

theorem arrival_of_some {statement : ProgramStatement} {before : Nat}
    (h : statement.semanticId = semanticId) (hSite : site statement = some before) :
    statement.arrival semanticId site =
      (arrivals semanticId site before statement.children).orArrives := by
  rw [statement.arrival_eq, arrivalAt, if_pos h, hSite]

theorem Arrival.andThen_eq_passes {first second : Arrival} :
    first.andThen second = .passes ↔ first = .passes ∧ second = .passes := by
  cases first <;> simp [andThen]

theorem Arrival.orArrives_eq_refused {arrival : Arrival} :
    arrival.orArrives = .refused ↔ arrival = .refused := by
  cases arrival <;> simp [orArrives]

theorem Arrival.orArrives_eq_arrives {arrival : Arrival} :
    arrival.orArrives = .arrives ↔ arrival = .passes ∨ arrival = .arrives := by
  cases arrival <;> simp [orArrives]

/-- What arrives or is refused first does so in the first item or behind it. -/
theorem Arrival.andThen_eq_of_ne {first second arrival : Arrival} (h : arrival ≠ .passes) :
    first.andThen second = arrival ↔ first = arrival ∨ first = .passes ∧ second = arrival := by
  cases first <;> simp [andThen, h.symm]

end Grafts

section Settling

variable {semanticId : String} {site : ProgramStatement → Option Nat}
  {change : ProgramStatement → Except V2AuthoringError (Option ProgramStatement)}
  {grafted statements : List ProgramStatement} {statement : ProgramStatement} {depth : Nat}

/-- A visit ends in one way from some depth on. -/
def Settles (endingAt : Nat → Visit.Ending) (ending : Visit.Ending) : Prop :=
  ∃ depth, ∀ more, depth ≤ more → endingAt more = ending

theorem Settles.of_succ {endingAt below : Nat → Visit.Ending} {ending : Visit.Ending}
    (h : Settles below ending) (hSucc : ∀ depth, endingAt (depth + 1) = below depth) :
    Settles endingAt ending := by
  obtain ⟨depth, hDepth⟩ := h
  refine ⟨depth + 1, fun more hMore => ?_⟩
  obtain ⟨n, rfl⟩ : ∃ n, more = n + 1 := ⟨more - 1, by omega⟩
  rw [hSucc, hDepth n (by omega)]

theorem Settles.andThen {first second : Nat → Visit.Ending} {ending ending' : Visit.Ending}
    (hFirst : Settles first ending) (hSecond : Settles second ending') :
    Settles (fun depth => (first depth).andThen (second depth)) (ending.andThen ending') := by
  obtain ⟨depth, hDepth⟩ := hFirst
  obtain ⟨depth', hDepth'⟩ := hSecond
  refine ⟨max depth depth', fun more hMore => ?_⟩
  show (first more).andThen (second more) = ending.andThen ending'
  rw [hDepth more (by omega), hDepth' more (by omega)]

theorem Settles.raised {first second : Nat → Visit.Ending} (h : Settles first .raised) :
    Settles (fun depth => (first depth).andThen (second depth)) .raised := by
  obtain ⟨depth, hDepth⟩ := h
  refine ⟨depth, fun more hMore => ?_⟩
  show (first more).andThen (second more) = .raised
  rw [hDepth more hMore]
  rfl

theorem settles_nil : Settles (fun depth => endings semanticId change depth []) .returned :=
  ⟨0, fun _ _ => rfl⟩

/-- A visit of one statement, by the depth. -/
def statementEnding (semanticId : String)
    (change : ProgramStatement → Except V2AuthoringError (Option ProgramStatement))
    (statement : ProgramStatement) (depth : Nat) : Visit.Ending :=
  (visitStatement semanticId change depth statement).ending

/-- What a visit comes to decides how it ends, unless it arrives. -/
def SettledByArrival (semanticId : String) (site : ProgramStatement → Option Nat)
    (change : ProgramStatement → Except V2AuthoringError (Option ProgramStatement))
    (statement : ProgramStatement) : Prop :=
  (statement.arrival semanticId site = .passes →
    Settles (statementEnding semanticId change statement) .returned) ∧
  (statement.arrival semanticId site = .refused →
    Settles (statementEnding semanticId change statement) .raised)

theorem settles_of_arrival (h : ∀ statement ∈ statements,
    SettledByArrival semanticId site change statement) :
    (arrivals semanticId site statements.length statements = .passes →
      Settles (fun depth => endings semanticId change depth statements) .returned) ∧
    (arrivals semanticId site statements.length statements = .refused →
      Settles (fun depth => endings semanticId change depth statements) .raised) := by
  induction statements with
  | nil =>
      refine ⟨fun _ => settles_nil, fun hRefused => ?_⟩
      rw [arrivals_nil] at hRefused
      cases hRefused
  | cons statement rest ih =>
      have hHere := h statement List.mem_cons_self
      have hRest := ih fun other hOther => h other (List.mem_cons_of_mem statement hOther)
      simp only [List.length_cons, arrivals_cons, endings_cons]
      constructor
      · intro hPasses
        obtain ⟨hFirst, hLater⟩ := Arrival.andThen_eq_passes.mp hPasses
        exact (hHere.1 hFirst).andThen (hRest.1 hLater)
      · intro hRefused
        have hNot : Arrival.refused ≠ .passes := fun hSame => by cases hSame
        rcases (Arrival.andThen_eq_of_ne hNot).mp hRefused with hFirst | ⟨hFirst, hLater⟩
        · exact (hHere.2 hFirst).raised
        · exact (hHere.1 hFirst).andThen (hRest.2 hLater)

theorem settledByArrival (hGrafts : Grafts change site grafted) (statement : ProgramStatement) :
    SettledByArrival semanticId site change statement := by
  induction statement using ProgramStatement.children_induction with
  | h statement ih =>
      by_cases hId : statement.semanticId = semanticId
      · refine ⟨fun hPasses => absurd hId (arrival_passes_iff.mp hPasses).1, fun hRefused => ?_⟩
        cases hSite : site statement with
        | none =>
            obtain ⟨e, hError⟩ := hGrafts.refused statement hSite
            refine ⟨1, fun more hMore => ?_⟩
            obtain ⟨n, rfl⟩ : ∃ n, more = n + 1 := ⟨more - 1, by omega⟩
            exact ending_visit_of_error hId hError
        | some before =>
            rw [arrival_of_some hId hSite, arrivals_take, Arrival.orArrives_eq_refused] at hRefused
            have hKept : ∀ child ∈ statement.children.take before,
                SettledByArrival semanticId site change child :=
              fun child hChild => ih child (List.mem_of_mem_take hChild)
            have hRaised := (settles_of_arrival hKept).2 hRefused
            rcases hGrafts.placed statement before hSite with
              ⟨-, -, rfl⟩ | ⟨current, hCurrent, hBelow⟩
            · rw [List.take_zero, arrivals_nil] at hRefused
              cases hRefused
            · refine Settles.of_succ ?_ fun depth => ending_visit_of_some hId hCurrent
              simp only [hBelow, List.append_assoc, endings_append]
              exact hRaised.raised
      · have hBelow := settles_of_arrival ih
        rw [SettledByArrival, arrival_of_ne hId]
        exact ⟨fun hPasses => (hBelow.1 hPasses).of_succ fun _ => ending_visit_of_ne hId,
          fun hRefused => (hBelow.2 hRefused).of_succ fun _ => ending_visit_of_ne hId⟩

/-- A visit comes to an end from some depth on. -/
def Ends (endingAt : Nat → Visit.Ending) : Prop := ∃ ending ≠ .endless, Settles endingAt ending

theorem Ends.andThen {first second : Nat → Visit.Ending} (hFirst : Ends first)
    (hSecond : Ends second) : Ends (fun depth => (first depth).andThen (second depth)) := by
  obtain ⟨ending, hEnding, hSettles⟩ := hFirst
  obtain ⟨ending', hEnding', hSettles'⟩ := hSecond
  refine ⟨ending.andThen ending', ?_, hSettles.andThen hSettles'⟩
  cases ending with
  | endless => exact absurd rfl hEnding
  | raised => exact hEnding
  | returned => exact hEnding'

theorem Ends.of_succ {endingAt below : Nat → Visit.Ending} (h : Ends below)
    (hSucc : ∀ depth, endingAt (depth + 1) = below depth) : Ends endingAt := by
  obtain ⟨ending, hEnding, hSettles⟩ := h
  exact ⟨ending, hEnding, hSettles.of_succ hSucc⟩

theorem Ends.of_constant {endingAt : Nat → Visit.Ending} {ending : Visit.Ending}
    (hEnding : ending ≠ .endless) (h : ∀ depth, endingAt (depth + 1) = ending) :
    Ends endingAt :=
  Ends.of_succ ⟨ending, hEnding, 0, fun _ _ => rfl⟩ h

theorem ends_of_forall (h : ∀ statement ∈ statements,
    Ends (statementEnding semanticId change statement)) :
    Ends (fun depth => endings semanticId change depth statements) := by
  induction statements with
  | nil => exact ⟨.returned, by decide, settles_nil⟩
  | cons statement rest ih =>
      have hRest := ih fun other hOther => h other (List.mem_cons_of_mem statement hOther)
      simp only [endings_cons]
      exact (h statement List.mem_cons_self).andThen hRest

/-- Where the visit of the new statements ends, every visit does. -/
theorem ends_of_grafted (hGrafts : Grafts change site grafted)
    (hGrafted : Ends (fun depth => endings semanticId change depth grafted))
    (statement : ProgramStatement) : Ends (statementEnding semanticId change statement) := by
  induction statement using ProgramStatement.children_induction with
  | h statement ih =>
      by_cases hId : statement.semanticId = semanticId
      · cases hSite : site statement with
        | none =>
            obtain ⟨e, hError⟩ := hGrafts.refused statement hSite
            exact Ends.of_constant (by decide) fun _ => ending_visit_of_error hId hError
        | some before =>
            rcases hGrafts.placed statement before hSite with
              ⟨hNone, -, -⟩ | ⟨current, hCurrent, hBelow⟩
            · exact Ends.of_constant (by decide) fun _ => ending_visit_of_none hId hNone
            · refine Ends.of_succ ?_ fun _ => ending_visit_of_some hId hCurrent
              have hBefore : Ends (fun depth => endings semanticId change depth
                  (statement.children.take before)) :=
                ends_of_forall fun child hChild => ih child (List.mem_of_mem_take hChild)
              have hAfter : Ends (fun depth => endings semanticId change depth
                  (statement.children.drop before)) :=
                ends_of_forall fun child hChild => ih child (List.mem_of_mem_drop hChild)
              simp only [hBelow, endings_append]
              exact (hBefore.andThen hGrafted).andThen hAfter
      · exact (ends_of_forall ih).of_succ fun _ => ending_visit_of_ne hId

theorem arrivals_eq_passes : arrivals semanticId site statements.length statements = .passes ↔
    ∀ statement ∈ statements, statement.arrival semanticId site = .passes := by
  induction statements with
  | nil => simp [arrivals_nil]
  | cons statement rest ih =>
      rw [List.length_cons, arrivals_cons, Arrival.andThen_eq_passes, ih, List.forall_mem_cons]

theorem endings_ne_raised (h : ∀ statement ∈ statements,
    statementEnding semanticId change statement depth ≠ .raised) :
    endings semanticId change depth statements ≠ .raised := by
  induction statements with
  | nil => exact fun hRaised => by cases hRaised
  | cons statement rest ih =>
      have hHere : (visitStatement semanticId change depth statement).ending ≠ .raised :=
        h statement List.mem_cons_self
      have hRest := ih fun other hOther => h other (List.mem_cons_of_mem statement hOther)
      rw [endings_cons]
      cases hEnding : (visitStatement semanticId change depth statement).ending with
      | endless => exact fun hRaised => by cases hRaised
      | raised => exact absurd hEnding hHere
      | returned => exact hRest

/-- Statements that are passed raise nothing. -/
theorem ending_ne_raised (h : statement.arrival semanticId site = .passes) :
    statementEnding semanticId change statement depth ≠ .raised := by
  induction depth generalizing statement with
  | zero => exact fun hRaised => by cases hRaised
  | succ depth ih =>
      obtain ⟨hId, hBelow⟩ := arrival_passes_iff.mp h
      rw [statementEnding, ending_visit_of_ne hId]
      exact endings_ne_raised fun child hChild => ih (arrivals_eq_passes.mp hBelow child hChild)

theorem endings_of_arrives (hEndless : ∀ statement ∈ statements,
    statement.arrival semanticId site = .arrives →
      statementEnding semanticId change statement depth = .endless)
    (h : arrivals semanticId site statements.length statements = .arrives) :
    endings semanticId change depth statements = .endless := by
  have hNot : Arrival.arrives ≠ .passes := fun hSame => by cases hSame
  induction statements with
  | nil =>
      rw [arrivals_nil] at h
      cases h
  | cons statement rest ih =>
      have hHere := hEndless statement List.mem_cons_self
      rw [List.length_cons, arrivals_cons, Arrival.andThen_eq_of_ne hNot] at h
      rw [endings_cons]
      rcases h with hArrives | ⟨hPasses, hLater⟩
      · have hEnding : (visitStatement semanticId change depth statement).ending = .endless :=
          hHere hArrives
        rw [hEnding]
        rfl
      · have hNoRaise : (visitStatement semanticId change depth statement).ending ≠ .raised :=
          ending_ne_raised hPasses
        have hRest := ih (fun other hOther => hEndless other (List.mem_cons_of_mem statement hOther))
          hLater
        cases hEnding : (visitStatement semanticId change depth statement).ending with
        | endless => rfl
        | raised => exact absurd hEnding hNoRaise
        | returned => exact hRest

/-- Where the visit of the new statements arrives at a place for them again, it
ends at no depth, and no visit that arrives at such a place does. -/
theorem endless_of_arrives (hGrafts : Grafts change site grafted)
    (hAgain : arrivals semanticId site grafted.length grafted = .arrives)
    (h : statement.arrival semanticId site = .arrives) :
    statementEnding semanticId change statement depth = .endless := by
  induction depth generalizing statement with
  | zero => rfl
  | succ depth ih =>
      have hLists {items : List ProgramStatement}
          (hItems : arrivals semanticId site items.length items = .arrives) :
          endings semanticId change depth items = .endless :=
        endings_of_arrives (fun _ _ => ih) hItems
      by_cases hId : statement.semanticId = semanticId
      · cases hSite : site statement with
        | none =>
            rw [statement.arrival_eq, arrivalAt, if_pos hId, hSite] at h
            cases h
        | some before =>
            rw [arrival_of_some hId hSite, arrivals_take, Arrival.orArrives_eq_arrives] at h
            rcases hGrafts.placed statement before hSite with
              ⟨-, rfl, -⟩ | ⟨current, hCurrent, hBelow⟩
            · rw [arrivals_nil] at hAgain
              cases hAgain
            · have hBefore : endings semanticId change depth (statement.children.take before) ≠
                  .raised := by
                rcases h with hPasses | hArrives
                · exact endings_ne_raised fun child hChild =>
                    ending_ne_raised (arrivals_eq_passes.mp hPasses child hChild)
                · rw [hLists hArrives]
                  exact fun hRaised => by cases hRaised
              rw [statementEnding, ending_visit_of_some hId hCurrent, hBelow, List.append_assoc,
                endings_append, endings_append, hLists hAgain]
              cases hEnding : endings semanticId change depth (statement.children.take before) with
              | endless => rfl
              | raised => exact absurd hEnding hBefore
              | returned => rfl
      · rw [arrival_of_ne hId] at h
        rw [statementEnding, ending_visit_of_ne hId]
        exact hLists h

/-- A visit comes to an end unless it arrives at a place for new statements, and
the visit of those does so too. -/
theorem ends_iff (hGrafts : Grafts change site grafted) :
    (∃ depth, endings semanticId change depth statements ≠ .endless) ↔
      ¬ (arrivals semanticId site statements.length statements = .arrives ∧
        arrivals semanticId site grafted.length grafted = .arrives) := by
  have hDecided (items : List ProgramStatement) : ∀ item ∈ items,
      SettledByArrival semanticId site change item := fun item _ => settledByArrival hGrafts item
  have hEnds {items : List ProgramStatement} (h : Ends fun depth =>
      endings semanticId change depth items) :
      ∃ depth, endings semanticId change depth items ≠ .endless := by
    obtain ⟨ending, hEnding, depth, hDepth⟩ := h
    exact ⟨depth, fun hEndless => hEnding ((hDepth depth le_rfl).symm.trans hEndless)⟩
  have hSettled {items : List ProgramStatement}
      (h : arrivals semanticId site items.length items ≠ .arrives) :
      Ends fun depth => endings semanticId change depth items := by
    cases hArrival : arrivals semanticId site items.length items with
    | passes => exact ⟨.returned, by decide, (settles_of_arrival (hDecided items)).1 hArrival⟩
    | refused => exact ⟨.raised, by decide, (settles_of_arrival (hDecided items)).2 hArrival⟩
    | arrives => exact absurd hArrival h
  constructor
  · rintro ⟨depth, hDepth⟩ ⟨hArrives, hAgain⟩
    exact hDepth (endings_of_arrives (fun _ _ => endless_of_arrives hGrafts hAgain) hArrives)
  · intro h
    by_cases hArrives : arrivals semanticId site statements.length statements = .arrives
    · have hGrafted := hSettled fun hAgain => h ⟨hArrives, hAgain⟩
      exact hEnds (ends_of_forall fun item _ => ends_of_grafted hGrafts hGrafted item)
    · exact hEnds (hSettled hArrives)

end Settling

section Positions

variable (statement : ProgramStatement) (index : Option Nat) (items others : List ProgramStatement)

theorem insertPosition_le : insertPosition index items ≤ items.length := by
  cases index with
  | none => exact le_rfl
  | some index => exact min_le_right _ _

theorem insertedAt_append : insertedAt statement index items ++ others =
    (items ++ others).take (insertPosition index items) ++ [statement] ++
      (items ++ others).drop (insertPosition index items) := by
  have hPosition := insertPosition_le index items
  rw [List.take_append_of_le_length hPosition, List.drop_append_of_le_length hPosition, insertedAt]
  simp

theorem append_insertedAt : others ++ insertedAt statement index items =
    (others ++ items).take (others.length + insertPosition index items) ++ [statement] ++
      (others ++ items).drop (others.length + insertPosition index items) := by
  rw [List.take_length_add_append, List.drop_length_add_append, insertedAt]
  simp

end Positions

section Edits

theorem children_control (head : ConditionalHead) (thenStatements otherwiseStatements :
    List ProgramStatement) : (ProgramStatement.control head thenStatements
      otherwiseStatements).children = thenStatements ++ otherwiseStatements := by
  simp [ProgramStatement.children, ProgramStatement.bodies]

theorem children_onEvent (id : String) (event : EventDefinition) (body : List ProgramStatement) :
    (ProgramStatement.onEvent id event body).children = body := by
  simp [ProgramStatement.children, ProgramStatement.bodies]

/-- Where an edit puts new statements: after how many children of a statement. -/
def ProgramEdit.site : ProgramEdit → ProgramStatement → Option Nat
  | .own _ edit, statement =>
      match edit.edit statement with
      | .error _ => none
      | .ok _ => some 0
  | .formalize _ _, .unresolved _ => some 0
  | .insert _ _ .thenStatements index, .control _ thenStatements _ =>
      some (insertPosition index thenStatements)
  | .insert _ _ .otherwiseStatements index, .control _ thenStatements otherwiseStatements =>
      some (thenStatements.length + insertPosition index otherwiseStatements)
  | .insert _ _ .event index, .onEvent _ _ statements => some (insertPosition index statements)
  | .remove _, _ => some 0
  | _, _ => none

/-- Statements that an edit puts below the addressed one and then visits. -/
def ProgramEdit.grafted : ProgramEdit → List ProgramStatement
  | .formalize _ replacement => replacement.children
  | .insert statement _ _ _ => [statement]
  | .own _ _ | .remove _ => []

theorem ProgramEdit.grafts (edit : ProgramEdit) : Grafts edit.change edit.site edit.grafted := by
  constructor
  · intro statement hSite
    cases edit with
    | own semanticId edit =>
        cases hEdit : edit.edit statement with
        | error e => exact ⟨e, by rw [change, hEdit]; rfl⟩
        | ok edited => simp [site, hEdit] at hSite
    | formalize semanticId replacement => cases statement <;> first | exact ⟨_, rfl⟩ | cases hSite
    | insert inserted parent branch index =>
        cases branch <;> cases statement <;> first | exact ⟨_, rfl⟩ | cases hSite
    | remove semanticId => cases hSite
  · intro statement before hSite
    cases edit with
    | own semanticId edit =>
        cases hEdit : edit.edit statement with
        | error e => simp [site, hEdit] at hSite
        | ok edited =>
            have hBodies := edit.bodies_kept statement edited hEdit
            have hChange : (own semanticId edit).change statement = .ok (some edited) := by
              rw [change, hEdit]
              rfl
            refine Or.inr ⟨edited, hChange, ?_⟩
            rw [ProgramStatement.children, hBodies, grafted, List.append_nil, List.take_append_drop]
            rfl
    | formalize semanticId replacement =>
        cases statement with
        | unresolved s =>
            cases hSite
            exact Or.inr ⟨replacement, rfl, by simp [grafted, ProgramStatement.children,
              ProgramStatement.bodies]⟩
        | _ => cases hSite
    | insert inserted parent branch index =>
        cases branch <;> cases statement <;> cases hSite
        case thenStatements.control.refl head thenStatements otherwiseStatements =>
          refine Or.inr ⟨_, rfl, ?_⟩
          rw [children_control, children_control, insertedAt_append]
          rfl
        case otherwiseStatements.control.refl head thenStatements otherwiseStatements =>
          refine Or.inr ⟨_, rfl, ?_⟩
          rw [children_control, children_control, append_insertedAt]
          rfl
        case event.onEvent.refl id event statements =>
          refine Or.inr ⟨_, rfl, ?_⟩
          have hInserted := insertedAt_append inserted index statements []
          rw [List.append_nil, List.append_nil] at hInserted
          rw [children_onEvent, children_onEvent, hInserted]
          rfl
    | remove semanticId =>
        cases hSite
        exact Or.inl ⟨rfl, rfl, rfl⟩

/-- The visit of the program arrives at a place for the new statements, and the
visit of the new statements arrives at one again. -/
def ProgramEdit.Recurs (program : SemanticProgram) (edit : ProgramEdit) : Prop :=
  ∃ address, edit.address = some address ∧
    arrivals address edit.site program.statements.length program.statements = .arrives ∧
    arrivals address edit.site edit.grafted.length edit.grafted = .arrives

theorem rewriteUnique_eq_none_iff {semanticId : String} {depth : Nat} {program : SemanticProgram}
    {change : ProgramStatement → Except V2AuthoringError (Option ProgramStatement)} :
    rewriteUnique semanticId change depth program = none ↔
      endings semanticId change depth program.statements = .endless := by
  rw [rewriteUnique, Option.map_eq_none_iff, rewriteVisiting, Option.map_eq_none_iff,
    Visit.settled_eq_none_iff, rewriteStatements, Visit.ending_map, endings]

/-- An edit at an address is out of depth where its visit is. -/
theorem apply_eq_none_iff {edit : ProgramEdit} {address : String} (depth : Nat)
    (program : SemanticProgram) (h : edit.address = some address) :
    edit.apply depth program = none ↔
      endings address edit.change depth program.statements = .endless := by
  cases edit with
  | own semanticId own =>
      cases h
      rw [ProgramEdit.apply, editProgramStatement, Option.map_eq_none_iff, rewriteUnique_eq_none_iff]
      rfl
  | formalize semanticId replacement =>
      cases h
      rw [ProgramEdit.apply, editProgramStatement, Option.map_eq_none_iff, rewriteUnique_eq_none_iff]
      rfl
  | insert inserted parent branch index =>
      cases h
      rw [ProgramEdit.apply, insertProgramStatement, editProgramStatement, Option.map_eq_none_iff,
        rewriteUnique_eq_none_iff]
      rfl
  | remove semanticId =>
      cases h
      rw [ProgramEdit.apply, Option.map_eq_none_iff, rewriteUnique_eq_none_iff]
      rfl

/-- A Control on a price. -/
def aboveTen : ProgramStatement :=
  .control { semanticId := "branch", condition := above (.daily (closeOf "A")) 10 } intoCash []

/-- A copy of a Control put into the Control's own branch. -/
def insertedCopy : ProgramEdit := .insert aboveTen (some "branch") .thenStatements none

end Edits

end RuleTrade
