import RuleTrade.Execution.Relabelling
import RuleTrade.Authoring.References
import RuleTrade.Execution.StatementRules
import RuleTrade.Strategy.Identities

/-! The terminal boundary policy of clocks. Before the last row of a snapshot a
policy can only matter to a clock that is asked at a row where it is not due by
itself. -/

namespace RuleTrade

open Library

variable (policies : String → TerminalBoundaryPolicy)

/-- The clock under another terminal boundary policy. -/
def ProgramClock.withPolicy (clock : ProgramClock) : ProgramClock :=
  { clock with terminalBoundaryPolicy := policies clock.id }

theorem withPolicy_ids (clocks : List ProgramClock) :
    (clocks.map (ProgramClock.withPolicy policies)).map ProgramClock.id =
      clocks.map ProgramClock.id := by
  rw [List.map_map]
  rfl

/-- The Program with the policies of its clocks changed. -/
def SemanticProgram.withPolicies (program : SemanticProgram) : SemanticProgram :=
  { program with
    clocks := program.clocks.map (ProgramClock.withPolicy policies)
    clock_ids_unique := by
      rw [withPolicy_ids]
      exact program.clock_ids_unique }

def Decision.withPolicies (d : Decision) : Decision :=
  { d with
    program := d.program.withPolicies policies
    inRange := d.inRange }

section Acceptance

variable {policies} {program : SemanticProgram}

theorem hasClock_withPolicies :
    hasClock (program.withPolicies policies) = hasClock program := by
  funext clockId
  simp only [hasClock, SemanticProgram.withPolicies, List.any_map]
  rfl

theorem checkClock_withPolicies :
    checkClock (program.withPolicies policies) = checkClock program := by
  funext clockId path v
  cases clockId with
  | none => rfl
  | some id => simp only [checkClock, hasClock_withPolicies]

theorem checkAllocation_withPolicies :
    checkAllocation (program.withPolicies policies) = checkAllocation program := by
  funext a path available v
  simp only [checkAllocation, checkClock_withPolicies]

theorem checkRule_withPolicies :
    checkRule (program.withPolicies policies) = checkRule program := by
  funext a path available v
  simp only [checkRule, checkAllocation_withPolicies]

theorem checkOverrides_withPolicies :
    checkOverrides (program.withPolicies policies) = checkOverrides program := by
  funext path available index rules v
  induction rules generalizing index v with
  | nil => rfl
  | cons rule rest ih =>
      simp only [checkOverrides, checkRule_withPolicies, ih]
      rfl

theorem checkGuarded_withPolicies :
    checkGuarded (program.withPolicies policies) = checkGuarded program := by
  funext s path available v
  have hFallback : checkFallback (program.withPolicies policies) = checkFallback program := by
    funext fallback path available v
    cases fallback with
    | none => rfl
    | some a => simp only [checkFallback, checkRule_withPolicies]
  simp only [checkGuarded, hFallback, checkOverrides_withPolicies, checkRule_withPolicies]
  rfl

theorem checkSelection_withPolicies :
    checkSelection (program.withPolicies policies) = checkSelection program := by
  funext s path v
  have hScored (bindingId : String) (index : Nat) (cs : List Condition) (v : ValidationState) :
      checkScoreConditions (program.withPolicies policies) path bindingId index cs v =
        checkScoreConditions program path bindingId index cs v := by
    induction cs generalizing index v with
    | nil => rfl
    | cons c rest ih =>
        simp only [checkScoreConditions, ih]
        rfl
  simp only [checkSelection, checkClock_withPolicies, hScored]
  rfl

mutual

/-- The visit of a statement looks at clock ids only. -/
theorem visit_withPolicies : ∀ (s : ProgramStatement) (path : String) (available : List String)
    (v : ValidationState),
    visit (program.withPolicies policies) s path available v = visit program s path available v
  | .unresolved s, path, available, v => rfl
  | .select s, path, available, v => by
      simp only [visit, checkSelection_withPolicies]
  | .allocate s, path, available, v => by
      simp only [visit, checkAllocation_withPolicies]
  | .control head thenStatements otherwiseStatements, path, available, v => by
      simp only [visit, checkClock_withPolicies, visitAll_withPolicies thenStatements,
        visitAll_withPolicies otherwiseStatements]
      rfl
  | .onEvent semanticId event body, path, available, v => by
      simp only [visit, checkEvent, checkClock_withPolicies, visitAll_withPolicies body]
      rfl
  | .rememberValue s, path, available, v => by
      simp only [visit, checkRemember, checkClock_withPolicies]
  | .transition semanticId t, path, available, v => by
      simp only [visit, checkTransition, checkClock_withPolicies]
      rfl
  | .guardedAllocation s, path, available, v => by
      simp only [visit, checkGuarded_withPolicies]

theorem visitAll_withPolicies : ∀ (statements : List ProgramStatement) (path : String) (index : Nat)
    (available : List String) (v : ValidationState),
    visitAll (program.withPolicies policies) statements path index available v =
      visitAll program statements path index available v
  | [], path, index, available, v => rfl
  | s :: rest, path, index, available, v => by
      simp only [visitAll, visit_withPolicies s, visitAll_withPolicies rest]

end

theorem visitProgram_withPolicies :
    visitProgram (program.withPolicies policies) = visitProgram program :=
  visitAll_withPolicies program.statements "program.statements" 0 [] {}

theorem valueDiagnostics_withPolicies (v : ValidationState) :
    valueDiagnostics (program.withPolicies policies) v = valueDiagnostics program v := by
  have hReference : referenceDiagnostics (program.withPolicies policies) v =
      referenceDiagnostics program v := by
    funext value
    cases value with
    | clockedValue id source clockId => simp only [referenceDiagnostics, hasClock_withPolicies]
    | _ => rfl
  simp only [valueDiagnostics, hReference]
  rfl

theorem formalizationDiagnostics_withPolicies (v : ValidationState) (index : Nat)
    (formalizations : List FormalizationProvenance) :
    formalizationDiagnostics (program.withPolicies policies) v index formalizations =
      formalizationDiagnostics program v index formalizations := by
  induction formalizations generalizing index with
  | nil => rfl
  | cons f rest ih =>
      simp only [formalizationDiagnostics, ih]
      rfl

end Acceptance

section Identity

variable {address : String} {n : Nat} {s s' : IdentityState}

/-- The states agree on everything but what is known under one address, where
both know a document of at least the size `n`. -/
structure IdentityState.AgreeBeside (address : String) (n : Nat) (s s' : IdentityState) :
    Prop where
  diagnostics : s.diagnostics = s'.diagnostics
  others : ∀ id, id ≠ address → s.identities.get? id = s'.identities.get? id
  known : ∃ known, s.identities.get? address = some known ∧ n ≤ sizeOf known.1
  known' : ∃ known, s'.identities.get? address = some known ∧ n ≤ sizeOf known.1

/-- A smaller document conflicts under the address, and is treated alike under
every other one. -/
theorem IdentityState.AgreeBeside.register (h : s.AgreeBeside address n s') {id path : String}
    {content : ContentHash} (hSmall : sizeOf content < n)
    (hClean : (s.register id content path).diagnostics = []) :
    (s.register id content path).AgreeBeside address n (s'.register id content path) := by
  by_cases hId : id = address
  · subst hId
    obtain ⟨known, hKnown, hLarge⟩ := h.known
    have hDiffer : known.1 ≠ content := by
      rintro rfl
      omega
    simp [IdentityState.register, hKnown, hDiffer] at hClean
  · have hSame := h.others id hId
    unfold IdentityState.register at hClean ⊢
    rw [← hSame]
    have hSet : ∀ entry : ContentHash × String, IdentityState.AgreeBeside address n
        { s with identities := s.identities.set id entry }
        { s' with identities := s'.identities.set id entry } := by
      intro entry
      refine ⟨h.diagnostics, fun other hOther => ?_, ?_, ?_⟩
      · rw [Dict.get?_set, Dict.get?_set, h.others other hOther]
      · rw [Dict.get?_set, if_neg (Ne.symm hId)]
        exact h.known
      · rw [Dict.get?_set, if_neg (Ne.symm hId)]
        exact h.known'
    split
    · exact hSet _
    · rename_i known first hKnown
      simp only [hKnown] at hClean
      split_ifs at hClean with hDiffer
      · exact absurd (List.append_eq_nil_iff.mp hClean).2 (List.cons_ne_nil _ _)
      · rw [if_neg hDiffer, if_neg hDiffer]
        exact hSet _

theorem sizeOf_filter_le (test : String × Json → Bool) (fields : List (String × Json)) :
    sizeOf (fields.filter test) ≤ sizeOf fields := by
  induction fields with
  | nil => exact le_rfl
  | cons field rest ih =>
      rw [List.filter_cons]
      split_ifs
      · simp only [List.cons.sizeOf_spec]
        omega
      · simp only [List.cons.sizeOf_spec]
        omega

mutual

/-- A clean inspection of a small document keeps the states in agreement. -/
theorem inspectIdentity_agree : ∀ (item : Json) (path : String) (s s' : IdentityState),
    sizeOf item < n → s.AgreeBeside address n s' → (inspectIdentity item path s).diagnostics = [] →
      (inspectIdentity item path s).AgreeBeside address n (inspectIdentity item path s')
  | .object fields, path, s, s', hSmall, h, hClean => by
      simp only [Json.object.sizeOf_spec] at hSmall
      have hContent : sizeOf (semanticContentHash
          (.object (fields.filter (fun field => field.1 ≠ "semantic_id")))) < n := by
        simp only [semanticContentHash, Json.object.sizeOf_spec]
        have hFilter := sizeOf_filter_le (fun field => field.1 ≠ "semantic_id") fields
        omega
      simp only [inspectIdentity] at hClean ⊢
      refine inspectFields_agree fields path _ _ (by omega) ?_ hClean
      have hRegistered := inspectFields_clean fields path _ hClean
      split
      · exact h
      · rename_i id hId
        rw [hId] at hRegistered
        exact h.register hContent hRegistered
  | .array items, path, s, s', hSmall, h, hClean => by
      simp only [Json.array.sizeOf_spec] at hSmall
      exact inspectItems_agree items path 0 s s' (by omega) h hClean
  | .null, path, s, s', hSmall, h, hClean => h
  | .bool _, path, s, s', hSmall, h, hClean => h
  | .number _, path, s, s', hSmall, h, hClean => h
  | .text _, path, s, s', hSmall, h, hClean => h

theorem inspectFields_agree : ∀ (fields : List (String × Json)) (path : String)
    (s s' : IdentityState), sizeOf fields < n → s.AgreeBeside address n s' →
      (inspectFields fields path s).diagnostics = [] →
      (inspectFields fields path s).AgreeBeside address n (inspectFields fields path s')
  | [], path, s, s', hSmall, h, hClean => h
  | (key, item) :: rest, path, s, s', hSmall, h, hClean => by
      simp only [List.cons.sizeOf_spec, Prod.mk.sizeOf_spec] at hSmall
      have hFirst := inspectFields_clean rest path _ hClean
      exact inspectFields_agree rest path _ _ (by omega)
        (inspectIdentity_agree item (path ++ "." ++ key) s s' (by omega) h hFirst) hClean

theorem inspectItems_agree : ∀ (items : List Json) (path : String) (index : Nat)
    (s s' : IdentityState), sizeOf items < n → s.AgreeBeside address n s' →
      (inspectItems items path index s).diagnostics = [] →
      (inspectItems items path index s).AgreeBeside address n (inspectItems items path index s')
  | [], path, index, s, s', hSmall, h, hClean => h
  | item :: rest, path, index, s, s', hSmall, h, hClean => by
      simp only [List.cons.sizeOf_spec] at hSmall
      have hFirst := inspectItems_clean rest path _ _ hClean
      exact inspectItems_agree rest path (index + 1) _ _ (by omega)
        (inspectIdentity_agree item (indexed path index) s s' (by omega) h hFirst) hClean

end

/-- Documents of clocks carry no address. -/
theorem inspectItems_clocks (clocks : List ProgramClock) (path : String) (index : Nat)
    (s : IdentityState) : inspectItems (clocks.map ProgramClock.document) path index s = s := by
  induction clocks generalizing index with
  | nil => rfl
  | cons clock rest ih => exact ih (index + 1)

theorem identityDiagnostics_withPolicies {program : SemanticProgram}
    (h : identityDiagnostics program = []) :
    identityDiagnostics (program.withPolicies policies) = [] := by
  let clocks (p : SemanticProgram) := Json.array (p.clocks.map ProgramClock.document)
  let rest : List (String × Json) := [
    ("initial_state", .object (program.initialState.entries.map
      (fun entry => (entry.1, .text entry.2)))),
    ("formalizations", .array (program.formalizations.map FormalizationProvenance.document)),
    ("statements", .array (ProgramStatement.documents program.statements))]
  let start (p : SemanticProgram) : IdentityState := ({} : IdentityState).register
    program.semanticId (semanticContentHash (.object (("clocks", clocks p) :: rest))) "program"
  have hInspect (p : SemanticProgram) (hId : p.semanticId = program.semanticId)
      (hRest : p.document = .object (("semantic_id", .text program.semanticId) ::
        ("clocks", clocks p) :: rest)) :
      identityDiagnostics p = (inspectFields rest "program" (start p)).diagnostics := by
    rw [identityDiagnostics, hRest]
    show (inspectFields rest "program" (inspectItems (p.clocks.map ProgramClock.document) _ 0
      (start p))).diagnostics = _
    rw [inspectItems_clocks]
  rw [hInspect program rfl rfl] at h
  rw [hInspect (program.withPolicies policies) rfl rfl]
  have hKnown (p : SemanticProgram) : ∃ known,
      (start p).identities.get? program.semanticId = some known ∧
        sizeOf rest + 1 ≤ sizeOf known.1 := by
    refine ⟨(semanticContentHash (.object (("clocks", clocks p) :: rest)), "program"),
      by simp [start, IdentityState.register], ?_⟩
    simp only [semanticContentHash, Json.object.sizeOf_spec, List.cons.sizeOf_spec]
    omega
  have hStart : (start program).AgreeBeside program.semanticId (sizeOf rest + 1)
      (start (program.withPolicies policies)) := by
    refine ⟨rfl, fun id hId => ?_, hKnown program, hKnown _⟩
    simp [start, IdentityState.register, Dict.get?_set, hId]
  rw [← (inspectFields_agree rest "program" _ _ (Nat.lt_succ_self _) hStart h).diagnostics]
  exact h

/-- Whether a Program is accepted does not depend on the policies of its clocks. -/
theorem Accepted.withPolicies {program : SemanticProgram} (h : Accepted program) :
    Accepted (program.withPolicies policies) := by
  unfold Accepted validateProgramV2 at h ⊢
  simp only [List.append_eq_nil_iff] at h ⊢
  obtain ⟨⟨⟨⟨hIdentity, hVisit⟩, hValues⟩, hWindows⟩, hFormalizations⟩ := h
  rw [visitProgram_withPolicies, valueDiagnostics_withPolicies]
  refine ⟨⟨⟨⟨identityDiagnostics_withPolicies policies hIdentity, hVisit⟩, hValues⟩, hWindows⟩, ?_⟩
  rw [← hFormalizations]
  exact formalizationDiagnostics_withPolicies _ _ _

end Identity

section Clocks

mutual

/-- Clocks whose completed rows a value or a condition reads. -/
def ValueExpression.clockRefs : ValueExpression → List String
  | .clockedValue _ _ clockId => [clockId]
  | .crossSectional _ source _ _ _ _ | .crossSectionalAggregate _ source _ _ _ => source.clockRefs
  | .score _ terms conditionTerms _ =>
      ScoreTerm.allClockRefs terms ++ ConditionPointTerm.allClockRefs conditionTerms
  | _ => []

def ScoreTerm.allClockRefs : List ScoreTerm → List String
  | [] => []
  | .mk _ value _ :: rest => value.clockRefs ++ ScoreTerm.allClockRefs rest

def ConditionPointTerm.allClockRefs : List ConditionPointTerm → List String
  | [] => []
  | .mk _ condition _ _ _ :: rest =>
      condition.clockRefs ++ ConditionPointTerm.allClockRefs rest

def Condition.clockRefs : Condition → List String
  | .comparison _ _ left right => left.clockRefs ++ right.clockRefs
  | .booleanGroup _ _ children | .nOfM _ _ children => Condition.allClockRefs children
  | .not _ child => child.clockRefs
  | .stateEquals _ _ _ | .eventWindow _ _ _ => []

def Condition.allClockRefs : List Condition → List String
  | [] => []
  | child :: rest => child.clockRefs ++ Condition.allClockRefs rest

end

/-- Clock whose completed row a reading asks for. -/
def Reading.clockRef : Reading → Option String
  | .ofValue (.clockedValue _ _ clockId) _ => some clockId
  | _ => none

variable {members : List String}

mutual

theorem ValueExpression.mem_clockRefs (v : ValueExpression) (candidate : Option String) :
    ∀ reading ∈ v.readings members candidate, ∀ id ∈ reading.clockRef, id ∈ v.clockRefs := by
  intro reading hReading id hId
  cases v with
  | crossSectional _ source _ _ _ _ =>
      cases candidate with
      | none =>
          obtain rfl := List.mem_singleton.mp hReading
          cases hId
      | some self =>
          obtain ⟨member, -, hMem⟩ := List.mem_flatMap.mp hReading
          exact source.mem_clockRefs (some member) reading hMem id hId
  | crossSectionalAggregate _ source _ _ _ =>
      obtain ⟨member, -, hMem⟩ := List.mem_flatMap.mp hReading
      exact source.mem_clockRefs (some member) reading hMem id hId
  | score _ terms conditionTerms _ =>
      rcases List.mem_append.mp hReading with hMem | hMem
      · exact List.mem_append_left _ (ScoreTerm.mem_clockRefs terms candidate reading hMem id hId)
      · exact List.mem_append_right _
          (ConditionPointTerm.mem_clockRefs conditionTerms candidate reading hMem id hId)
  | clockedValue _ _ clockId =>
      obtain rfl := List.mem_singleton.mp hReading
      exact List.mem_singleton.mpr (Option.mem_some_iff.mp hId).symm
  | _ =>
      obtain rfl := List.mem_singleton.mp hReading
      cases hId

theorem ScoreTerm.mem_clockRefs (terms : List ScoreTerm) (candidate : Option String) :
    ∀ reading ∈ ScoreTerm.allReadings members terms candidate, ∀ id ∈ reading.clockRef,
      id ∈ ScoreTerm.allClockRefs terms := by
  intro reading hReading id hId
  cases terms with
  | nil => cases hReading
  | cons term rest =>
      obtain ⟨_, value, _⟩ := term
      rcases List.mem_append.mp hReading with hMem | hMem
      · exact List.mem_append_left _ (value.mem_clockRefs candidate reading hMem id hId)
      · exact List.mem_append_right _ (ScoreTerm.mem_clockRefs rest candidate reading hMem id hId)

theorem ConditionPointTerm.mem_clockRefs (terms : List ConditionPointTerm)
    (candidate : Option String) :
    ∀ reading ∈ ConditionPointTerm.allReadings members terms candidate, ∀ id ∈ reading.clockRef,
      id ∈ ConditionPointTerm.allClockRefs terms := by
  intro reading hReading id hId
  cases terms with
  | nil => cases hReading
  | cons term rest =>
      obtain ⟨_, condition, _, _, _⟩ := term
      rcases List.mem_append.mp hReading with hMem | hMem
      · exact List.mem_append_left _ (condition.mem_clockRefs candidate reading hMem id hId)
      · exact List.mem_append_right _
          (ConditionPointTerm.mem_clockRefs rest candidate reading hMem id hId)

theorem Condition.mem_clockRefs (c : Condition) (candidate : Option String) :
    ∀ reading ∈ c.readings members candidate, ∀ id ∈ reading.clockRef, id ∈ c.clockRefs := by
  intro reading hReading id hId
  cases c with
  | comparison _ _ left right =>
      rcases List.mem_append.mp hReading with hMem | hMem
      · exact List.mem_append_left _ (left.mem_clockRefs candidate reading hMem id hId)
      · exact List.mem_append_right _ (right.mem_clockRefs candidate reading hMem id hId)
  | not _ child => exact child.mem_clockRefs candidate reading hReading id hId
  | booleanGroup _ _ children =>
      exact Condition.mem_allClockRefs children candidate reading hReading id hId
  | nOfM _ _ children =>
      exact Condition.mem_allClockRefs children candidate reading hReading id hId
  | stateEquals _ _ _ =>
      obtain rfl := List.mem_singleton.mp hReading
      cases hId
  | eventWindow _ _ _ =>
      obtain rfl := List.mem_singleton.mp hReading
      cases hId

theorem Condition.mem_allClockRefs (children : List Condition) (candidate : Option String) :
    ∀ reading ∈ Condition.allReadings members children candidate, ∀ id ∈ reading.clockRef,
      id ∈ Condition.allClockRefs children := by
  intro reading hReading id hId
  cases children with
  | nil => cases hReading
  | cons child rest =>
      rcases List.mem_append.mp hReading with hMem | hMem
      · exact List.mem_append_left _ (child.mem_clockRefs candidate reading hMem id hId)
      · exact List.mem_append_right _
          (Condition.mem_allClockRefs rest candidate reading hMem id hId)

end

/-- Clocks that a statement asks by itself whether they are due. -/
def ProgramStatement.gates : ProgramStatement → List String
  | .guardedAllocation s => s.actions.flatMap (fun a => a.clockId.toList)
  | s => s.clockId.toList

/-- Clocks whose completed rows a statement reads by itself. -/
def ProgramStatement.clockRefs : ProgramStatement → List String
  | .select s =>
      (s.selection.eligibility.map Condition.clockRefs).getD [] ++ s.selection.ranking.clockRefs
  | .control head _ _ => head.condition.clockRefs
  | .onEvent _ event _ => (event.condition.map Condition.clockRefs).getD []
  | .transition _ t => t.when.clockRefs
  | .rememberValue s => s.value.clockRefs
  | .guardedAllocation s =>
      (s.guard.map Condition.clockRefs).getD [] ++
        s.overrides.flatMap (fun rule => rule.when.clockRefs)
  | .allocate _ | .unresolved _ => []

end Clocks

section Decisions

variable {policies} {d : Decision}

/-- A clock is due by itself, whatever its policy, or keeps its policy. -/
def Decision.Settles (policies : String → TerminalBoundaryPolicy) (d : Decision)
    (clock : ProgramClock) : Prop :=
  policies clock.id = clock.terminalBoundaryPolicy ∨ d.clockDue clock d.cutoff false = true

/-- A policy only adds a boundary. -/
theorem clockDue_eq (clock : ProgramClock) (index : Nat) (allowTerminal : Bool) :
    d.clockDue clock index allowTerminal = (d.clockDue clock index false ||
      (allowTerminal && clock.terminalBoundaryPolicy = .fixtureEndIsBoundary)) := by
  unfold Decision.clockDue
  cases clock.timeframe <;> simp

theorem clockDue_withPolicy (clock : ProgramClock) (index : Nat) :
    d.clockDue (clock.withPolicy policies) index false = d.clockDue clock index false := by
  simp [Decision.clockDue, ProgramClock.withPolicy]

/-- The gate of a clock is the same under both policies exactly when it settles. -/
theorem clockDue_withPolicies_iff (clock : ProgramClock) :
    (d.withPolicies policies).clockDue (clock.withPolicy policies) d.cutoff true =
      d.clockDue clock d.cutoff true ↔ d.Settles policies clock := by
  show d.clockDue (clock.withPolicy policies) d.cutoff true = _ ↔ _
  rw [clockDue_eq, clockDue_eq clock, clockDue_withPolicy, Decision.Settles]
  have hPolicy : (clock.withPolicy policies).terminalBoundaryPolicy = policies clock.id := rfl
  rw [hPolicy]
  cases d.clockDue clock d.cutoff false with
  | true => simp
  | false => cases policies clock.id <;> cases clock.terminalBoundaryPolicy <;> decide

theorem clock_withPolicies (clockId : String) :
    (d.withPolicies policies).clock clockId =
      (d.clock clockId).map (ProgramClock.withPolicy policies) := by
  have hFind : (d.withPolicies policies).program.clocks.find? (fun clock => clock.id = clockId) =
      (d.program.clocks.find? (fun clock => clock.id = clockId)).map
        (ProgramClock.withPolicy policies) :=
    List.find?_map ..
  rw [Decision.clock, Decision.clock, hFind]
  cases d.program.clocks.find? (fun clock => clock.id = clockId) <;> rfl

/-- Every clock of the name settles. -/
def Decision.SettlesAt (policies : String → TerminalBoundaryPolicy) (d : Decision)
    (clockId : String) : Prop :=
  ∀ clock, d.clock clockId = .ok clock → d.Settles policies clock

theorem due_withPolicies {clockId : Option String}
    (h : ∀ id ∈ clockId, d.SettlesAt policies id) :
    (d.withPolicies policies).due clockId = d.due clockId := by
  cases clockId with
  | none => rfl
  | some id =>
      have hSettles := h id rfl
      simp only [Decision.due, Decision.clockDueAt, clock_withPolicies]
      cases hClock : d.clock id with
      | error e => rfl
      | ok clock =>
          exact congrArg Except.ok ((clockDue_withPolicies_iff clock).mpr (hSettles clock hClock))

/-- A clock whose completed row is read settles, or is weekly: before the last
row a week is complete only once another one follows. -/
def Decision.ReadsAt (policies : String → TerminalBoundaryPolicy) (d : Decision)
    (clockId : String) : Prop :=
  ∀ clock, d.clock clockId = .ok clock → clock.timeframe = .weekly ∨ d.Settles policies clock

theorem completedRow_withPolicies (hEarly : d.cutoff + 1 < d.environment.dates.length)
    {clock : ProgramClock} (h : clock.timeframe = .weekly ∨ d.Settles policies clock) :
    (d.withPolicies policies).completedRow (clock.withPolicy policies) = d.completedRow clock := by
  have hLast : d.cutoff ≠ d.environment.dates.length - 1 := by omega
  have hDue (hSettles : d.Settles policies clock) (index : Nat) :
      d.clockDue (clock.withPolicy policies) index (index = d.cutoff) =
        d.clockDue clock index (index = d.cutoff) := by
    by_cases hIndex : index = d.cutoff
    · have hGate : d.clockDue (clock.withPolicy policies) d.cutoff true =
          d.clockDue clock d.cutoff true := (clockDue_withPolicies_iff clock).mpr hSettles
      simpa [hIndex] using hGate
    · simpa [hIndex] using clockDue_withPolicy clock index
  have hTime : (clock.withPolicy policies).timeframe = clock.timeframe := rfl
  cases hTimeframe : clock.timeframe with
  | weekly =>
      simp only [Decision.completedRow, hTime, hTimeframe]
      rw [if_neg (fun hEnd => hLast hEnd.2), if_neg (fun hEnd => hLast hEnd.2)]
      rfl
  | _ =>
      have hSettles := h.resolve_left (by simp [hTimeframe])
      simp only [Decision.completedRow, hTime, hTimeframe, ← hDue hSettles]
      rfl

theorem lastCompleted_withPolicies (hEarly : d.cutoff + 1 < d.environment.dates.length)
    {clockId : String} (h : d.ReadsAt policies clockId) :
    (d.withPolicies policies).lastCompletedClockCutoff clockId =
      d.lastCompletedClockCutoff clockId := by
  simp only [Decision.lastCompletedClockCutoff, clock_withPolicies]
  cases hClock : d.clock clockId with
  | error e => rfl
  | ok clock => exact congrArg Except.ok (completedRow_withPolicies hEarly (h clock hClock))

end Decisions

section Evaluation

variable {policies} {d : Decision} {r : Runtime}

variable (policies d r) in
/-- A decision under both policies, side by side. -/
def policyWorlds : Worlds Bool where
  decision := fun changed => if changed then d.withPolicies policies else d
  runtime := fun _ => r
  context := d.environment.context
  observedAt := d.observedAt
  context_eq := by
    intro changed
    cases changed <;> rfl
  observedAt_eq := by
    intro changed
    cases changed <;> rfl

theorem reading_withPolicies (hEarly : d.cutoff + 1 < d.environment.dates.length)
    {bindingId : Option String} {members : List String} {reading : Reading}
    (hAtomic : reading.Atomic) (h : ∀ id ∈ reading.clockRef, d.ReadsAt policies id) :
    reading.Has (fun {α : Type} (x : Bool → Evaluation α) => Agree x) (policyWorlds policies d r)
      bindingId members := by
  cases reading with
  | ofValue expression candidate =>
      cases expression with
      | clockedValue id source clockId =>
          have hRow := lastCompleted_withPolicies hEarly (h clockId rfl)
          show value (d.withPolicies policies) r bindingId members _ candidate =
            value d r bindingId members _ candidate
          simp only [value, hRow]
          rfl
      | crossSectional =>
          obtain rfl : candidate = none := hAtomic
          rfl
      | crossSectionalAggregate => exact absurd hAtomic id
      | score => exact absurd hAtomic id
      | _ => rfl
  | ofCondition test =>
      cases test with
      | stateEquals => rfl
      | eventWindow => rfl
      | _ => exact absurd hAtomic id

theorem value_withPolicies (hEarly : d.cutoff + 1 < d.environment.dates.length)
    {v : ValueExpression} (h : ∀ id ∈ v.clockRefs, d.ReadsAt policies id)
    (bindingId : Option String) (members : List String) (candidate : Option String) :
    value (d.withPolicies policies) r bindingId members v candidate =
      value d r bindingId members v candidate :=
  value_holds (policyWorlds policies d r) agree_sequential v candidate
    (fun reading hReading hAtomic => reading_withPolicies hEarly hAtomic
      (fun id hId => h id (v.mem_clockRefs candidate reading hReading id hId)))

theorem condition_withPolicies (hEarly : d.cutoff + 1 < d.environment.dates.length)
    {c : Condition} (h : ∀ id ∈ c.clockRefs, d.ReadsAt policies id)
    (bindingId : Option String) (members : List String) (candidate : Option String) :
    condition (d.withPolicies policies) r bindingId members c candidate =
      condition d r bindingId members c candidate :=
  condition_holds (policyWorlds policies d r) agree_sequential c candidate
    (fun reading hReading hAtomic => reading_withPolicies hEarly hAtomic
      (fun id hId => h id (c.mem_clockRefs candidate reading hReading id hId)))

theorem predicate_withPolicies (hEarly : d.cutoff + 1 < d.environment.dates.length)
    {c : Condition} (h : ∀ id ∈ c.clockRefs, d.ReadsAt policies id) :
    predicate (d.withPolicies policies) r c = predicate d r c :=
  condition_withPolicies hEarly h none [] none

theorem expandLegs_withPolicies (legs : List AllocationLeg) :
    expandLegs (d.withPolicies policies) r legs = expandLegs d r legs := by
  induction legs with
  | nil => rfl
  | cons leg rest ih =>
      simp only [expandLegs, ih]
      rfl

theorem allocation_withPolicies {a : AllocationStatement} {outcome : String}
    (h : ∀ id ∈ a.clockId, d.SettlesAt policies id) :
    allocation (d.withPolicies policies) r a outcome = allocation d r a outcome := by
  simp only [allocation, due_withPolicies h, expandLegs_withPolicies]
  rfl

theorem selection_withPolicies (hEarly : d.cutoff + 1 < d.environment.dates.length)
    {s : SelectionStatement} (hGate : ∀ id ∈ s.clockId, d.SettlesAt policies id)
    (hReads : ∀ id ∈ (ProgramStatement.select s).clockRefs, d.ReadsAt policies id) :
    selection (d.withPolicies policies) r s = selection d r s := by
  have hRanked : rankMember (d.withPolicies policies) r s.selection = rankMember d r s.selection := by
    funext members member
    have hRanking : ∀ id ∈ s.selection.ranking.clockRefs, d.ReadsAt policies id :=
      fun id hId => hReads id (List.mem_append_right _ hId)
    cases hEligibility : s.selection.eligibility with
    | none => simp only [rankMember, hEligibility, value_withPolicies hEarly hRanking]
    | some c =>
        have hCondition : ∀ id ∈ c.clockRefs, d.ReadsAt policies id := by
          intro id hId
          apply hReads id
          simp [ProgramStatement.clockRefs, hEligibility, hId]
        simp only [rankMember, hEligibility, value_withPolicies hEarly hRanking,
          condition_withPolicies hEarly hCondition]
  simp only [selection, due_withPolicies hGate, hRanked]
  rfl

theorem firstOverride_withPolicies (hEarly : d.cutoff + 1 < d.environment.dates.length)
    {rules : List OverrideRule}
    (h : ∀ rule ∈ rules, ∀ id ∈ rule.when.clockRefs, d.ReadsAt policies id) :
    firstOverride (d.withPolicies policies) r rules = firstOverride d r rules := by
  induction rules with
  | nil => rfl
  | cons rule rest ih =>
      have hRest := ih (fun other hOther => h other (List.mem_cons_of_mem rule hOther))
      simp only [firstOverride, predicate_withPolicies hEarly (h rule List.mem_cons_self), hRest]

end Evaluation

section Statements

variable {policies} {d : Decision} {r : Runtime}

/-- Clocks that an Event without a recorded truth reads at the row before. -/
def ProgramStatement.rebuiltRefs (d : Decision) : ProgramStatement → List String
  | .onEvent _ event _ =>
      if d.priorEventTruths.contains event.semanticId ∨ d.cutoff = 0 then []
      else (event.condition.map Condition.clockRefs).getD []
  | _ => []

/-- No clock that the statement consults by itself feels its policy. -/
structure ProgramStatement.Settled (policies : String → TerminalBoundaryPolicy) (d : Decision)
    (s : ProgramStatement) : Prop where
  gates : ∀ id ∈ s.gates, d.SettlesAt policies id
  reads : ∀ id ∈ s.clockRefs, d.ReadsAt policies id
  rebuilt : ∀ id ∈ s.rebuiltRefs d, d.prior.ReadsAt policies id

theorem event_withPolicies (hEarly : d.cutoff + 1 < d.environment.dates.length)
    {semanticId : String} {event : EventDefinition} {body : List ProgramStatement}
    (h : (ProgramStatement.onEvent semanticId event body).Settled policies d) :
    enterEvent (d.withPolicies policies) r semanticId event = enterEvent d r semanticId event := by
  have hGate : (d.withPolicies policies).due (some event.clockId) = d.due (some event.clockId) :=
    due_withPolicies (fun id hId => h.gates id (by simpa [ProgramStatement.gates,
      ProgramStatement.clockId] using hId.symm))
  have hNow : currentTruth (d.withPolicies policies) r event = currentTruth d r event := by
    unfold currentTruth
    split
    · rfl
    · rename_i edge c hTrigger
      apply predicate_withPolicies hEarly
      intro id hId
      apply h.reads id
      simp [ProgramStatement.clockRefs, EventDefinition.condition, hTrigger, hId]
  have hBefore : previousTruth (d.withPolicies policies) r event = previousTruth d r event := by
    have hTruths : (d.withPolicies policies).priorEventTruths = d.priorEventTruths := rfl
    cases hKnown : d.priorEventTruths.get? event.semanticId with
    | some truth => simp only [previousTruth, hTruths, hKnown]
    | none =>
        cases hTrigger : event.trigger with
        | scheduled => simp only [previousTruth, hTruths, hKnown, hTrigger]
        | on edge c =>
            have hCutoff : (d.withPolicies policies).cutoff = d.cutoff := rfl
            simp only [previousTruth, hTruths, hKnown, hTrigger, hCutoff]
            split_ifs with hFirst
            · rfl
            · have hPriorEarly : d.prior.cutoff + 1 < d.prior.environment.dates.length :=
                lt_of_le_of_lt (Nat.succ_le_succ (Nat.sub_le _ _)) hEarly
              refine congrArg Logged.result (predicate_withPolicies (d := d.prior)
                (r := r.prior d) hPriorEarly (fun id hId => h.rebuilt id ?_))
              have hContains : d.priorEventTruths.contains event.semanticId = false := by
                simp [Dict.contains, hKnown]
              simp [ProgramStatement.rebuiltRefs, hContains, hFirst, EventDefinition.condition,
                hTrigger, hId]
  simp only [enterEvent, hGate, hNow, hBefore]
  rfl

theorem guarded_withPolicies (hEarly : d.cutoff + 1 < d.environment.dates.length)
    {s : GuardedAllocationStatement} (h : (ProgramStatement.guardedAllocation s).Settled policies d) :
    enterGuarded (d.withPolicies policies) r s = enterGuarded d r s := by
  have hGuard : guardTruth (d.withPolicies policies) r s = guardTruth d r s := by
    unfold guardTruth
    cases hCondition : s.guard with
    | none => rfl
    | some c =>
        apply predicate_withPolicies hEarly
        intro id hId
        apply h.reads id
        simp [ProgramStatement.clockRefs, hCondition, hId]
  have hOverride : firstOverride (d.withPolicies policies) r s.ranked =
      firstOverride d r s.ranked := by
    apply firstOverride_withPolicies hEarly
    intro rule hRule id hId
    apply h.reads id
    apply List.mem_append_right
    exact List.mem_flatMap.mpr ⟨rule, Sequence.mem_sortByDescending.mp hRule, hId⟩
  simp only [enterGuarded, hGuard, hOverride]
  congr 1
  funext guard
  by_cases hBlocks : s.blocks guard = true
  · rw [if_pos hBlocks, if_pos hBlocks]
  rw [if_neg hBlocks, if_neg hBlocks]
  cases hRan : firstOverride d r s.ranked with
  | failure e => rfl
  | success override log =>
      have hMem : ∀ rule ∈ override, rule ∈ s.overrides := by
        rintro rule rfl
        exact Sequence.mem_sortByDescending.mp
          (mem_of_firstOverride (Logged.result_eq_ok.mpr ⟨log, hRan⟩))
      rw [Logged.success_bind, Logged.success_bind]
      cases hChoice : s.choice override (allocationResolvable r s.primary) with
      | none => rfl
      | some choice =>
          have hAction := choice_mem_actions hMem hChoice
          have hSame : allocation (d.withPolicies policies) r choice.action choice.outcome =
              allocation d r choice.action choice.outcome :=
            allocation_withPolicies (fun id hId => h.gates id
              (List.mem_flatMap.mpr ⟨choice.action, hAction, Option.mem_toList.mpr hId⟩))
          simp only [applyChoice, hSame]

/-- A settled statement is entered alike under both policies. -/
theorem enter_withPolicies (hEarly : d.cutoff + 1 < d.environment.dates.length)
    {s : ProgramStatement} (h : s.Settled policies d) :
    enter (d.withPolicies policies) r s = enter d r s := by
  have hGate : ∀ clockId : Option String, clockId.toList ⊆ s.gates →
      (d.withPolicies policies).due clockId = d.due clockId :=
    fun clockId hClock => due_withPolicies
      (fun id hId => h.gates id (hClock (Option.mem_toList.mpr hId)))
  cases s with
  | select s =>
      have hSame := selection_withPolicies (r := r) hEarly
        (fun id hId => h.gates id (Option.mem_toList.mpr hId)) h.reads
      simp only [enter, hSame]
  | allocate a =>
      have hSame : allocation (d.withPolicies policies) r a "allocated" =
          allocation d r a "allocated" :=
        allocation_withPolicies (fun id hId => h.gates id (Option.mem_toList.mpr hId))
      simp only [enter, hSame]
  | control head thenStatements otherwiseStatements =>
      simp only [enter, enterControl, hGate head.clockId (List.Subset.refl _),
        predicate_withPolicies hEarly h.reads]
  | onEvent semanticId event body => simp only [enter, event_withPolicies hEarly h]
  | transition semanticId t =>
      simp only [enter, enterTransition, transitionTruth, hGate t.clockId (List.Subset.refl _),
        predicate_withPolicies hEarly h.reads]
      rfl
  | rememberValue s =>
      simp only [enter, enterRemember, hGate s.clockId (List.Subset.refl _),
        value_withPolicies hEarly h.reads]
  | guardedAllocation s => simp only [enter, guarded_withPolicies hEarly h]
  | unresolved s => rfl

end Statements

section Runs

variable {program : SemanticProgram} {revisionId : Option String}

end Runs

/-- Everything into cash whenever the clock is due. -/
def cashOn (clock : ProgramClock) : SemanticProgram :=
  .onClock clock [.allocate { AllocationStatement.sole "cash" .cash with clockId := some clock.id }]

def weekly (policy : TerminalBoundaryPolicy) : ProgramClock where
  id := "weekly"
  timeframe := .weekly
  terminalBoundaryPolicy := policy

/-- A Friday and a Monday. -/
def fridayThenMonday : DailyMarketSnapshot :=
  .single "A" (⟨2024, 1, 5⟩, some 10) [(⟨2024, 1, 8⟩, some 11)]

/-- A Monday and a Tuesday of one week. -/
def sameWeek : DailyMarketSnapshot :=
  .single "A" (⟨2024, 1, 8⟩, some 10) [(⟨2024, 1, 9⟩, some 11)]

end RuleTrade
