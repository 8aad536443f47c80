import RuleTrade.Execution.Runtime

/-! What an evaluation reads. Composite Values and Conditions only sequence the
evaluation of their parts, so a property that survives sequencing holds of a
whole evaluation once it holds of its readings. -/

namespace RuleTrade

open Library

/-- A part that an evaluation consults by itself: a Value for a candidate, or a
Condition without parts. -/
inductive Reading where
  | ofValue (expression : ValueExpression) (candidate : Option String)
  | ofCondition (condition : Condition)

/-- Readings have no parts of their own. -/
def Reading.Atomic : Reading → Prop
  | .ofValue (.crossSectional ..) candidate => candidate = none
  | .ofValue (.crossSectionalAggregate ..) _ | .ofValue (.score ..) _ => False
  | .ofValue _ _ => True
  | .ofCondition (.stateEquals ..) | .ofCondition (.eventWindow ..) => True
  | .ofCondition _ => False

section Readings

variable (members : List String)

mutual

/-- Readings of a Value. A cross-section reads its source for every member. -/
def ValueExpression.readings : ValueExpression → Option String → List Reading
  | .crossSectional id source domain transform direction bins, candidate =>
      match candidate with
      | none => [.ofValue (.crossSectional id source domain transform direction bins) none]
      | some _ => members.flatMap (fun member => source.readings (some member))
  | .crossSectionalAggregate _ source _ _ _, _ =>
      members.flatMap (fun member => source.readings (some member))
  | .score _ terms conditionTerms _, candidate =>
      ScoreTerm.allReadings terms candidate ++
        ConditionPointTerm.allReadings conditionTerms candidate
  | value, candidate => [.ofValue value candidate]

def ScoreTerm.allReadings : List ScoreTerm → Option String → List Reading
  | [], _ => []
  | .mk _ value _ :: rest, candidate =>
      value.readings candidate ++ ScoreTerm.allReadings rest candidate

def ConditionPointTerm.allReadings : List ConditionPointTerm → Option String → List Reading
  | [], _ => []
  | .mk _ condition _ _ _ :: rest, candidate =>
      condition.readings candidate ++ ConditionPointTerm.allReadings rest candidate

def Condition.readings : Condition → Option String → List Reading
  | .comparison _ _ left right, candidate => left.readings candidate ++ right.readings candidate
  | .not _ child, candidate => child.readings candidate
  | .booleanGroup _ _ children, candidate | .nOfM _ _ children, candidate =>
      Condition.allReadings children candidate
  | condition, _ => [.ofCondition condition]

def Condition.allReadings : List Condition → Option String → List Reading
  | [], _ => []
  | child :: rest, candidate => child.readings candidate ++ Condition.allReadings rest candidate

end

end Readings

/-- Decisions evaluated side by side. They share arithmetic and date, and may
differ in everything else. -/
structure Worlds (W : Type) where
  decision : W → Decision
  runtime : W → Runtime
  context : DecimalContext
  observedAt : CalendarDate
  context_eq : ∀ w, (decision w).environment.context = context
  observedAt_eq : ∀ w, (decision w).observedAt = observedAt

section Rule

variable {W : Type} {P : ∀ {α : Type}, (W → Evaluation α) → Prop} (worlds : Worlds W)
  {bindingId : Option String} {members : List String}

/-- A reading, evaluated in every world, has the property. -/
def Reading.Has (P : ∀ {α : Type}, (W → Evaluation α) → Prop) (worlds : Worlds W)
    (bindingId : Option String) (members : List String) : Reading → Prop
  | .ofValue expression candidate => P (fun w =>
      value (worlds.decision w) (worlds.runtime w) bindingId members expression candidate)
  | .ofCondition test => P (fun w =>
      condition (worlds.decision w) (worlds.runtime w) bindingId members test none)

theorem Worlds.observation_eq (worlds : Worlds W) (w : W) (id : String)
    (candidate : Option String) (hash : ContentHash) (value : Option ℚ) (reason : Option String) :
    (worlds.decision w).observation id candidate hash value reason =
      { semanticId := id, candidate := candidate, value := value, reason := reason
        observedAt := worlds.observedAt, expressionHash := hash } := by
  rw [Decision.observation, worlds.observedAt_eq]

theorem recorded_holds (hP : Logged.Sequential P) (observation : ProgramValueObservation) :
    P (fun _ => recorded observation) :=
  hP.success observation [observation]

mutual

/-- Evaluation rule: a Value has the property when its readings have it. -/
theorem value_holds (hP : Logged.Sequential P) :
    ∀ (v : ValueExpression) (candidate : Option String),
    (∀ reading ∈ v.readings members candidate, reading.Atomic → reading.Has P worlds bindingId members) →
      P (fun w => value (worlds.decision w) (worlds.runtime w) bindingId members v candidate)
  | .crossSectional id source domain transform direction bins, none, h =>
      h _ (List.mem_singleton_self _) rfl
  | .crossSectional id source domain transform direction bins, some self, h => by
      simp only [value, worlds.context_eq, worlds.observation_eq]
      refine hP.bind (hP.forEach (fun member hMember => ?_)) (fun items => recorded_holds hP _)
      refine hP.bind (value_holds hP source (some member) (fun reading hReading => ?_))
        (fun item => hP.success _ [])
      exact h reading (List.mem_flatMap.mpr ⟨member, hMember, hReading⟩)
  | .crossSectionalAggregate id source domain reduction coverage, candidate, h => by
      simp only [value, worlds.context_eq, worlds.observation_eq]
      refine hP.bind (hP.forEach (fun member hMember => ?_)) (fun items => recorded_holds hP _)
      refine hP.bind (value_holds hP source (some member) (fun reading hReading => ?_))
        (fun item => hP.success _ [])
      exact h reading (List.mem_flatMap.mpr ⟨member, hMember, hReading⟩)
  | .score id terms conditionTerms policy, candidate, h => by
      simp only [value, worlds.context_eq, worlds.observation_eq]
      refine hP.bind (scoreTerms_holds hP terms candidate {} (fun reading hReading => ?_))
        (fun tally => hP.bind (scoreConditionTerms_holds hP conditionTerms candidate tally
          (fun reading hReading => ?_)) (fun tally => recorded_holds hP _))
      · exact h reading (List.mem_append_left _ hReading)
      · exact h reading (List.mem_append_right _ hReading)
  | .daily node, candidate, h => h _ (List.mem_singleton_self _) trivial
  | .literal id number quantity unit refinement, candidate, h => h _ (List.mem_singleton_self _) trivial
  | .candidateTrailingReturn id binding lookback clock, candidate, h =>
      h _ (List.mem_singleton_self _) trivial
  | .candidateCurrentPrice id binding clock, candidate, h => h _ (List.mem_singleton_self _) trivial
  | .eventRelative id event source offset, candidate, h => h _ (List.mem_singleton_self _) trivial
  | .clockedValue id source clockId, candidate, h => h _ (List.mem_singleton_self _) trivial
  | .rememberedValue id memory quantity unit refinement, candidate, h =>
      h _ (List.mem_singleton_self _) trivial
  | .barsSinceEvent id event, candidate, h => h _ (List.mem_singleton_self _) trivial
  | .barsSinceState id key, candidate, h => h _ (List.mem_singleton_self _) trivial
  | .timeSinceEvent id event, candidate, h => h _ (List.mem_singleton_self _) trivial
  | .timeSinceState id key, candidate, h => h _ (List.mem_singleton_self _) trivial

theorem scoreTerms_holds (hP : Logged.Sequential P) :
    ∀ (terms : List ScoreTerm) (candidate : Option String) (tally : ScoreTally),
    (∀ reading ∈ ScoreTerm.allReadings members terms candidate,
      reading.Atomic → reading.Has P worlds bindingId members) →
      P (fun w => scoreTerms (worlds.decision w) (worlds.runtime w) bindingId members terms candidate
        tally)
  | [], candidate, tally, h => by
      simp only [scoreTerms]
      exact hP.success tally []
  | .mk id term weight :: rest, candidate, tally, h => by
      simp only [scoreTerms, worlds.context_eq]
      refine hP.bind (value_holds hP term candidate (fun reading hReading => ?_)) (fun item =>
        scoreTerms_holds hP rest candidate _ (fun reading hReading => ?_))
      · exact h reading (List.mem_append_left _ hReading)
      · exact h reading (List.mem_append_right _ hReading)

theorem scoreConditionTerms_holds (hP : Logged.Sequential P) :
    ∀ (terms : List ConditionPointTerm) (candidate : Option String) (tally : ScoreTally),
    (∀ reading ∈ ConditionPointTerm.allReadings members terms candidate,
      reading.Atomic → reading.Has P worlds bindingId members) →
      P (fun w => scoreConditionTerms (worlds.decision w) (worlds.runtime w) bindingId members terms
        candidate tally)
  | [], candidate, tally, h => by
      simp only [scoreConditionTerms]
      exact hP.success tally []
  | .mk id term truePoints falsePoints unknownPoints :: rest, candidate, tally, h => by
      simp only [scoreConditionTerms, worlds.context_eq]
      refine hP.bind (condition_holds hP term candidate (fun reading hReading => ?_))
        (fun outcome => scoreConditionTerms_holds hP rest candidate _ (fun reading hReading => ?_))
      · exact h reading (List.mem_append_left _ hReading)
      · exact h reading (List.mem_append_right _ hReading)

/-- Evaluation rule: a Condition has the property when its readings have it. -/
theorem condition_holds (hP : Logged.Sequential P) :
    ∀ (c : Condition) (candidate : Option String),
    (∀ reading ∈ c.readings members candidate, reading.Atomic → reading.Has P worlds bindingId members) →
      P (fun w => condition (worlds.decision w) (worlds.runtime w) bindingId members c candidate)
  | .comparison id operator left right, candidate, h => by
      simp only [condition]
      refine hP.bind (value_holds hP left candidate (fun reading hReading => ?_)) (fun l =>
        hP.bind (value_holds hP right candidate (fun reading hReading => ?_)) (fun r =>
          hP.success _ []))
      · exact h reading (List.mem_append_left _ hReading)
      · exact h reading (List.mem_append_right _ hReading)
  | .not id child, candidate, h => by
      simp only [condition]
      exact hP.bind (condition_holds hP child candidate h) (fun outcome => hP.success _ [])
  | .booleanGroup id kind children, candidate, h => by
      simp only [condition]
      exact hP.bind (conditions_holds hP children candidate h) (fun outcomes => hP.success _ [])
  | .nOfM id minimumTrue children, candidate, h => by
      simp only [condition]
      exact hP.bind (conditions_holds hP children candidate h) (fun outcomes => hP.success _ [])
  | .stateEquals id key expected, candidate, h => h _ (List.mem_singleton_self _) trivial
  | .eventWindow id event relation, candidate, h => h _ (List.mem_singleton_self _) trivial

theorem conditions_holds (hP : Logged.Sequential P) :
    ∀ (children : List Condition) (candidate : Option String),
    (∀ reading ∈ Condition.allReadings members children candidate,
      reading.Atomic → reading.Has P worlds bindingId members) →
      P (fun w => conditions (worlds.decision w) (worlds.runtime w) bindingId members children
        candidate)
  | [], candidate, h => by
      simp only [conditions]
      exact hP.success [] []
  | child :: rest, candidate, h => by
      simp only [conditions]
      refine hP.bind (condition_holds hP child candidate (fun reading hReading => ?_))
        (fun outcome => hP.bind (conditions_holds hP rest candidate (fun reading hReading => ?_)) (fun outcomes =>
          hP.success _ []))
      · exact h reading (List.mem_append_left _ hReading)
      · exact h reading (List.mem_append_right _ hReading)

end

end Rule

section Returns

variable {d : Decision} {r : Runtime} {bindingId : Option String} {members : List String}

/-- Evaluating the reading by itself returns. -/
def Reading.Returns (d : Decision) (r : Runtime) (bindingId : Option String)
    (members : List String) : Reading → Prop
  | .ofValue expression candidate => ∃ observation log,
      value d r bindingId members expression candidate = .success observation log
  | .ofCondition test => ∃ truth log,
      condition d r bindingId members test none = .success truth log

mutual

/-- A Value that returns has read everything it could: no reading is skipped. -/
theorem value_returns : ∀ (v : ValueExpression) (candidate : Option String)
    {observation : ProgramValueObservation} {log : List ProgramValueObservation},
    value d r bindingId members v candidate = .success observation log →
      ∀ reading ∈ v.readings members candidate, reading.Atomic →
        reading.Returns d r bindingId members
  | .crossSectional id source domain transform direction bins, none, _, _, h, _, hReading, _ => by
      obtain rfl := List.mem_singleton.mp hReading
      exact ⟨_, _, h⟩
  | .crossSectional id source domain transform direction bins, some self, _, _, h, reading,
      hReading, hAtomic => by
      simp only [value] at h
      obtain ⟨items, _, _, hItems, -, -⟩ := Logged.bind_eq_success.mp h
      obtain ⟨member, hMember, hSource⟩ := List.mem_flatMap.mp hReading
      obtain ⟨_, _, hItem⟩ := Logged.forEach_eq_success hItems hMember
      obtain ⟨_, _, _, hValue, -, -⟩ := Logged.bind_eq_success.mp hItem
      exact value_returns source (some member) hValue reading hSource hAtomic
  | .crossSectionalAggregate id source domain reduction coverage, candidate, _, _, h, reading,
      hReading, hAtomic => by
      simp only [value] at h
      obtain ⟨items, _, _, hItems, -, -⟩ := Logged.bind_eq_success.mp h
      obtain ⟨member, hMember, hSource⟩ := List.mem_flatMap.mp hReading
      obtain ⟨_, _, hItem⟩ := Logged.forEach_eq_success hItems hMember
      obtain ⟨_, _, _, hValue, -, -⟩ := Logged.bind_eq_success.mp hItem
      exact value_returns source (some member) hValue reading hSource hAtomic
  | .score id terms conditionTerms policy, candidate, _, _, h, reading, hReading, hAtomic => by
      simp only [value] at h
      obtain ⟨_, _, _, hTerms, h, -⟩ := Logged.bind_eq_success.mp h
      obtain ⟨_, _, _, hConditionTerms, -, -⟩ := Logged.bind_eq_success.mp h
      rcases List.mem_append.mp hReading with hReading | hReading
      · exact scoreTerms_returns terms candidate _ hTerms reading hReading hAtomic
      · exact scoreConditionTerms_returns conditionTerms candidate _ hConditionTerms reading
          hReading hAtomic
  | .daily _, _, _, _, h, _, hReading, _ => by
      obtain rfl := List.mem_singleton.mp hReading
      exact ⟨_, _, h⟩
  | .literal .., _, _, _, h, _, hReading, _ => by
      obtain rfl := List.mem_singleton.mp hReading
      exact ⟨_, _, h⟩
  | .candidateTrailingReturn .., _, _, _, h, _, hReading, _ => by
      obtain rfl := List.mem_singleton.mp hReading
      exact ⟨_, _, h⟩
  | .candidateCurrentPrice .., _, _, _, h, _, hReading, _ => by
      obtain rfl := List.mem_singleton.mp hReading
      exact ⟨_, _, h⟩
  | .eventRelative .., _, _, _, h, _, hReading, _ => by
      obtain rfl := List.mem_singleton.mp hReading
      exact ⟨_, _, h⟩
  | .clockedValue .., _, _, _, h, _, hReading, _ => by
      obtain rfl := List.mem_singleton.mp hReading
      exact ⟨_, _, h⟩
  | .rememberedValue .., _, _, _, h, _, hReading, _ => by
      obtain rfl := List.mem_singleton.mp hReading
      exact ⟨_, _, h⟩
  | .barsSinceEvent .., _, _, _, h, _, hReading, _ => by
      obtain rfl := List.mem_singleton.mp hReading
      exact ⟨_, _, h⟩
  | .barsSinceState .., _, _, _, h, _, hReading, _ => by
      obtain rfl := List.mem_singleton.mp hReading
      exact ⟨_, _, h⟩
  | .timeSinceEvent .., _, _, _, h, _, hReading, _ => by
      obtain rfl := List.mem_singleton.mp hReading
      exact ⟨_, _, h⟩
  | .timeSinceState .., _, _, _, h, _, hReading, _ => by
      obtain rfl := List.mem_singleton.mp hReading
      exact ⟨_, _, h⟩

theorem scoreTerms_returns : ∀ (terms : List ScoreTerm) (candidate : Option String)
    (tally : ScoreTally) {total : ScoreTally} {log : List ProgramValueObservation},
    scoreTerms d r bindingId members terms candidate tally = .success total log →
      ∀ reading ∈ ScoreTerm.allReadings members terms candidate, reading.Atomic →
        reading.Returns d r bindingId members
  | [], _, _, _, _, _, _, hReading, _ => by cases hReading
  | .mk id term weight :: rest, candidate, _, _, _, h, reading, hReading, hAtomic => by
      simp only [scoreTerms] at h
      obtain ⟨_, _, _, hTerm, hRest, -⟩ := Logged.bind_eq_success.mp h
      rcases List.mem_append.mp hReading with hReading | hReading
      · exact value_returns term candidate hTerm reading hReading hAtomic
      · exact scoreTerms_returns rest candidate _ hRest reading hReading hAtomic

theorem scoreConditionTerms_returns : ∀ (terms : List ConditionPointTerm)
    (candidate : Option String) (tally : ScoreTally) {total : ScoreTally}
    {log : List ProgramValueObservation},
    scoreConditionTerms d r bindingId members terms candidate tally = .success total log →
      ∀ reading ∈ ConditionPointTerm.allReadings members terms candidate, reading.Atomic →
        reading.Returns d r bindingId members
  | [], _, _, _, _, _, _, hReading, _ => by cases hReading
  | .mk id term truePoints falsePoints unknownPoints :: rest, candidate, _, _, _, h, reading,
      hReading, hAtomic => by
      simp only [scoreConditionTerms] at h
      obtain ⟨_, _, _, hTerm, hRest, -⟩ := Logged.bind_eq_success.mp h
      rcases List.mem_append.mp hReading with hReading | hReading
      · exact condition_returns term candidate hTerm reading hReading hAtomic
      · exact scoreConditionTerms_returns rest candidate _ hRest reading hReading hAtomic

/-- A Condition that returns has read everything it could. -/
theorem condition_returns : ∀ (c : Condition) (candidate : Option String) {truth : Truth}
    {log : List ProgramValueObservation},
    condition d r bindingId members c candidate = .success truth log →
      ∀ reading ∈ c.readings members candidate, reading.Atomic →
        reading.Returns d r bindingId members
  | .comparison id operator left right, candidate, _, _, h, reading, hReading, hAtomic => by
      simp only [condition] at h
      obtain ⟨_, _, _, hLeft, h, -⟩ := Logged.bind_eq_success.mp h
      obtain ⟨_, _, _, hRight, -, -⟩ := Logged.bind_eq_success.mp h
      rcases List.mem_append.mp hReading with hReading | hReading
      · exact value_returns left candidate hLeft reading hReading hAtomic
      · exact value_returns right candidate hRight reading hReading hAtomic
  | .not id child, candidate, _, _, h, reading, hReading, hAtomic => by
      simp only [condition] at h
      obtain ⟨_, _, _, hChild, -, -⟩ := Logged.bind_eq_success.mp h
      exact condition_returns child candidate hChild reading hReading hAtomic
  | .booleanGroup id kind children, candidate, _, _, h, reading, hReading, hAtomic => by
      simp only [condition] at h
      obtain ⟨_, _, _, hChildren, -, -⟩ := Logged.bind_eq_success.mp h
      exact conditions_returns children candidate hChildren reading hReading hAtomic
  | .nOfM id minimumTrue children, candidate, _, _, h, reading, hReading, hAtomic => by
      simp only [condition] at h
      obtain ⟨_, _, _, hChildren, -, -⟩ := Logged.bind_eq_success.mp h
      exact conditions_returns children candidate hChildren reading hReading hAtomic
  | .stateEquals id key expected, _, _, _, h, _, hReading, _ => by
      obtain rfl := List.mem_singleton.mp hReading
      exact ⟨_, _, h⟩
  | .eventWindow id event relation, _, _, _, h, _, hReading, _ => by
      obtain rfl := List.mem_singleton.mp hReading
      exact ⟨_, _, h⟩

theorem conditions_returns : ∀ (children : List Condition) (candidate : Option String)
    {truths : List Truth} {log : List ProgramValueObservation},
    conditions d r bindingId members children candidate = .success truths log →
      ∀ reading ∈ Condition.allReadings members children candidate, reading.Atomic →
        reading.Returns d r bindingId members
  | [], _, _, _, _, _, hReading, _ => by cases hReading
  | child :: rest, candidate, _, _, h, reading, hReading, hAtomic => by
      simp only [conditions] at h
      obtain ⟨_, _, _, hChild, h, -⟩ := Logged.bind_eq_success.mp h
      obtain ⟨_, _, _, hRest, -, -⟩ := Logged.bind_eq_success.mp h
      rcases List.mem_append.mp hReading with hReading | hReading
      · exact condition_returns child candidate hChild reading hReading hAtomic
      · exact conditions_returns rest candidate hRest reading hReading hAtomic

end

end Returns

end RuleTrade
