import RuleTrade.Strategy.ValueSemanticsV1

/-! Types of values: what the checker gives, what the evaluator reports and what is compiled.
The evaluator follows the checker through arithmetic as long as no operator drops a unit. -/

namespace RuleTrade.V1

open Library DatasetValueEvaluator

section Operands

/-- An expression and the operands of its arithmetic, with their paths. -/
def Expression.operandsAt (path : String) : Expression → List (String × Expression)
  | .arithmetic operator left right =>
      (path, .arithmetic operator left right) ::
        (left.operandsAt (path ++ ".left") ++ right.operandsAt (path ++ ".right"))
  | expression => [(path, expression)]

def Expression.IsArithmetic (expression : Expression) : Prop :=
  ∃ operator left right, expression = .arithmetic operator left right

/-- Induction over arithmetic. Everything else is a leaf. -/
@[elab_as_elim]
theorem Expression.arithmetic_induction {motive : Expression → Prop}
    (leaf : ∀ expression : Expression, ¬ expression.IsArithmetic → motive expression)
    (node : ∀ operator left right, motive left → motive right →
      motive (.arithmetic operator left right)) : ∀ expression, motive expression
  | .arithmetic operator left right =>
      node operator left right (arithmetic_induction leaf node left)
        (arithmetic_induction leaf node right)
  | .literal _ _ | .parameterRef _ | .stateRef _ | .candidate | .groupRef _ | .marketSeries _ _
  | .current _ | .rollingAggregate _ _ _ | .price _ | .averageCost _ | .indicator _ _ _
  | .componentOutput _ _ | .comparison _ _ _ | .boolean _ _ | .negation _ =>
      leaf _ (by simp [IsArithmetic])

theorem Expression.operandsAt_leaf {expression : Expression} (h : ¬ expression.IsArithmetic)
    (path : String) : expression.operandsAt path = [(path, expression)] := by
  cases expression with
  | arithmetic operator left right => exact absurd ⟨operator, left, right, rfl⟩ h
  | _ => rfl

theorem Expression.mem_operandsAt (path : String) (expression : Expression) :
    (path, expression) ∈ expression.operandsAt path := by
  cases expression <;> simp [operandsAt]

end Operands

section Units

/-- An operator whose unit the evaluator does not report: a product without a decimal factor,
and a quotient by a percentage or of money by money per share. -/
def dropsUnit (operator : ArithmeticOperator) (left right : ValueType) : Bool :=
  match operator with
  | .add | .subtract => false
  | .multiply => left ≠ .decimal && right ≠ .decimal
  | .divide =>
      (left ≠ .decimal && right = .percentage) || (left = .money && right = .moneyPerShare)

theorem isScalable_ne_decimal {type : ValueType} (h : isScalable type = true) :
    type ≠ .decimal := by
  intro hDecimal
  simp [hDecimal, isScalable] at h

/-- A product is a decimal only when both factors are. -/
theorem productType_ne_decimal {left right type : ValueType}
    (h : productType left right = some type) (hLeft : left ≠ .decimal) (hRight : right ≠ .decimal) :
    type ≠ .decimal := by
  simp only [productType, hLeft, hRight, if_false] at h
  split at h
  · next hScaled =>
      cases h
      exact isScalable_ne_decimal hScaled.2
  · split at h
    · next hScaled =>
        cases h
        exact isScalable_ne_decimal hScaled.2
    · split at h
      · cases h
        simp
      · cases h

theorem arithmeticType_multiply {left right type : ValueType} {path : String}
    (h : arithmeticType .multiply left right path = .ok type) :
    productType left right = some type := by
  simp only [arithmeticType] at h
  split at h
  · cases h
  · rcases hProduct : productType left right with _ | product
    · simp [hProduct, refuse] at h
    · rw [hProduct] at h
      exact congrArg some (Except.ok.inj h)

theorem arithmeticType_divide {left right type : ValueType} {path : String}
    (h : arithmeticType .divide left right path = .ok type) :
    quotientType left right = some type := by
  simp only [arithmeticType] at h
  split at h
  · cases h
  · rcases hQuotient : quotientType left right with _ | quotient
    · simp [hQuotient, refuse] at h
    · rw [hQuotient] at h
      exact congrArg some (Except.ok.inj h)

theorem resultType_multiply {left right type : ValueType}
    (h : productType left right = some type) :
    resultType .multiply left right = type ↔ dropsUnit .multiply left right = false := by
  by_cases hLeft : left = .decimal
  · subst hLeft
    simp only [productType, if_true, Option.some.injEq] at h
    simp [resultType, dropsUnit, h]
  · by_cases hRight : right = .decimal
    · subst hRight
      have hType : left = type := by simpa [productType, hLeft] using h
      subst hType
      simp [resultType, dropsUnit, hLeft]
    · have hType := productType_ne_decimal h hLeft hRight
      simp [resultType, dropsUnit, hLeft, hRight, hType.symm]

theorem resultType_divide {left right type : ValueType}
    (h : quotientType left right = some type) :
    resultType .divide left right = type ↔ dropsUnit .divide left right = false := by
  simp only [quotientType] at h
  split at h
  · next hRight =>
      cases h
      rcases hRight with rfl | rfl
      · simp [resultType, dropsUnit]
      · by_cases hLeft : left = .decimal
        · simp [resultType, dropsUnit, hLeft]
        · simp [resultType, dropsUnit, hLeft, Ne.symm hLeft]
  · next hRight =>
      rw [not_or] at hRight
      split at h
      · next hMoney =>
          cases h
          simp [resultType, dropsUnit, hMoney]
      · next hMoney =>
          split at h
          · cases h
            simp_all [resultType, dropsUnit]
          · cases h

/-- The reported type of an operator is the checked one exactly when no unit is dropped. -/
theorem resultType_eq_iff {operator : ArithmeticOperator} {left right type : ValueType}
    {path : String} (h : arithmeticType operator left right path = .ok type) :
    resultType operator left right = type ↔ dropsUnit operator left right = false := by
  cases operator with
  | multiply => exact resultType_multiply (arithmeticType_multiply h)
  | divide => exact resultType_divide (arithmeticType_divide h)
  | add =>
      simp only [arithmeticType] at h
      split at h
      · cases h
      · split at h
        · cases h
          simp [resultType, dropsUnit, *]
        · cases h
  | subtract =>
      simp only [arithmeticType] at h
      split at h
      · cases h
      · split at h
        · cases h
          simp [resultType, dropsUnit, *]
        · cases h

end Units

section Leaves

variable {strategy : CanonicalStrategyV1} {self : DatasetValueEvaluator} {datasetId : String}
  {asOf : CalendarDate} {candidateAsset : Option String}

/-- What was observed of a series, and the type the checker gives it. -/
theorem series_type {inner : Expression} {path : String} {type : ValueType} {count : Nat}
    {window : List (CalendarDate × ℚ)} {reported : ValueType}
    (hType : (expressionType strategy (path ++ ".series") inner >>= seriesScalarType path) =
      .ok type)
    (h : self.series datasetId asOf candidateAsset inner count = .ok (window, reported)) :
    reported = type := by
  cases inner with
  | marketSeries field subject =>
      cases field with
      | volume => simp [series] at h
      | price =>
          obtain ⟨symbol, -, h⟩ := except_bind_ok.mp h
          obtain ⟨read, -, h⟩ := except_bind_ok.mp h
          cases h
          obtain ⟨seriesType, hSeries, hType⟩ := except_bind_ok.mp hType
          obtain ⟨actual, -, hSeries⟩ := except_bind_ok.mp hSeries
          obtain ⟨_, -, hSeries⟩ := except_bind_ok.mp hSeries
          cases hSeries
          exact Except.ok.inj hType
  | _ => simp [series] at h

theorem indicatorType_trailingReturn {parameters : Dict String Value} {path : String}
    {type : ValueType}
    (h : indicatorType strategy "trailing_return_indicator@1" parameters path = .ok type) :
    type = .percentage := by
  have hGet : (getPrimitive "trailing_return_indicator@1").map
      (fun item => (item.category, item.resultType)) = some (.indicator, some .percentage) := by
    with_unfolding_all rfl
  obtain ⟨indicator, hIndicator, hParts⟩ := Option.map_eq_some_iff.mp hGet
  obtain ⟨hCategory, hResult⟩ := Prod.mk.inj hParts
  simp only [indicatorType, hIndicator, hCategory, hResult] at h
  split at h
  · exact (Except.ok.inj h).symm
  · cases h

/-- Outside arithmetic the reported type is the checked one. -/
theorem scalar_type_leaf {expression : Expression} (hLeaf : ¬ expression.IsArithmetic)
    {path : String} {type : ValueType} {observation : Observation}
    (hType : expressionType strategy path expression = .ok type)
    (h : self.scalar datasetId asOf candidateAsset expression = .ok observation) :
    observation.type = type := by
  cases expression with
  | arithmetic operator left right => exact absurd ⟨operator, left, right, rfl⟩ hLeaf
  | literal valueType value =>
      simp only [scalar] at h
      split at h
      · split at h
        · cases h
          exact Except.ok.inj hType
        · cases h
      · cases h
  | price asset =>
      obtain ⟨symbol, -, h⟩ := except_bind_ok.mp h
      obtain ⟨window, -, h⟩ := except_bind_ok.mp h
      obtain ⟨last, -, h⟩ := except_bind_ok.mp h
      cases h
      obtain ⟨actual, -, hType⟩ := except_bind_ok.mp hType
      obtain ⟨_, -, hType⟩ := except_bind_ok.mp hType
      exact Except.ok.inj hType
  | current inner =>
      obtain ⟨⟨window, reported⟩, hSeries, h⟩ := except_bind_ok.mp h
      obtain ⟨last, -, h⟩ := except_bind_ok.mp h
      cases h
      exact series_type hType hSeries
  | rollingAggregate operator inner windowObservations =>
      obtain ⟨⟨window, reported⟩, hSeries, h⟩ := except_bind_ok.mp h
      obtain ⟨last, -, h⟩ := except_bind_ok.mp h
      cases h
      exact series_type hType hSeries
  | indicator indicatorId asset parameters =>
      simp only [scalar] at h
      split at h
      · next hId =>
          subst hId
          obtain ⟨actual, -, hType⟩ := except_bind_ok.mp hType
          obtain ⟨_, -, hType⟩ := except_bind_ok.mp hType
          rw [indicatorType_trailingReturn hType]
          obtain ⟨lookback, -, h⟩ := except_bind_ok.mp h
          split at h
          · obtain ⟨symbol, -, h⟩ := except_bind_ok.mp h
            obtain ⟨window, -, h⟩ := except_bind_ok.mp h
            obtain ⟨last, -, h⟩ := except_bind_ok.mp h
            obtain ⟨first, -, h⟩ := except_bind_ok.mp h
            cases h
            rfl
          · cases h
      · cases h
  | _ => simp [scalar] at h

end Leaves

section Reports

variable (strategy : CanonicalStrategyV1) (path : String) (expression : Expression)

/-- No operator within drops the unit that the checker gives. -/
def KeepsUnits : Prop :=
  ∀ place operator left right, (place, .arithmetic operator left right) ∈ expression.operandsAt path →
    ∀ leftType rightType,
      expressionType strategy (place ++ ".left") left = .ok leftType →
      expressionType strategy (place ++ ".right") right = .ok rightType →
      dropsUnit operator leftType rightType = false

variable (self : DatasetValueEvaluator) (datasetId : String) (asOf : CalendarDate)
  (candidateAsset : Option String)

/-- Every value observed on the way is of its checked type. -/
def ReportsChecked : Prop :=
  ∀ place operand, (place, operand) ∈ expression.operandsAt path →
    ∀ observation, self.scalar datasetId asOf candidateAsset operand = .ok observation →
      expressionType strategy place operand = .ok observation.type

variable {strategy path expression self datasetId asOf candidateAsset}

theorem keepsUnits_arithmetic {operator : ArithmeticOperator} {left right : Expression}
    {leftType rightType : ValueType}
    (hLeft : expressionType strategy (path ++ ".left") left = .ok leftType)
    (hRight : expressionType strategy (path ++ ".right") right = .ok rightType) :
    KeepsUnits strategy path (.arithmetic operator left right) ↔
      dropsUnit operator leftType rightType = false ∧
        KeepsUnits strategy (path ++ ".left") left ∧
        KeepsUnits strategy (path ++ ".right") right := by
  constructor
  · intro h
    refine ⟨h path operator left right (Expression.mem_operandsAt path _) _ _ hLeft hRight, ?_, ?_⟩
    · intro place op l r hMem
      exact h place op l r (List.mem_cons_of_mem _ (List.mem_append_left _ hMem))
    · intro place op l r hMem
      exact h place op l r (List.mem_cons_of_mem _ (List.mem_append_right _ hMem))
  · rintro ⟨hTop, hInLeft, hInRight⟩ place op l r hMem leftType' rightType' hLeft' hRight'
    rcases List.mem_cons.mp hMem with hSame | hMem
    · cases hSame
      rw [hLeft] at hLeft'
      rw [hRight] at hRight'
      cases hLeft'
      cases hRight'
      exact hTop
    · rcases List.mem_append.mp hMem with hMem | hMem
      · exact hInLeft place op l r hMem _ _ hLeft' hRight'
      · exact hInRight place op l r hMem _ _ hLeft' hRight'

theorem reportsChecked_arithmetic {operator : ArithmeticOperator} {left right : Expression}
    {type : ValueType} {observation : Observation}
    (hType : expressionType strategy path (.arithmetic operator left right) = .ok type)
    (h : self.scalar datasetId asOf candidateAsset (.arithmetic operator left right) =
      .ok observation) :
    ReportsChecked strategy path (.arithmetic operator left right) self datasetId asOf
        candidateAsset ↔
      observation.type = type ∧
        ReportsChecked strategy (path ++ ".left") left self datasetId asOf candidateAsset ∧
        ReportsChecked strategy (path ++ ".right") right self datasetId asOf candidateAsset := by
  constructor
  · intro hReports
    refine ⟨?_, ?_, ?_⟩
    · have hTop := hReports path _ (Expression.mem_operandsAt path _) observation h
      rw [hType] at hTop
      exact (Except.ok.inj hTop).symm
    · intro place operand hMem
      exact hReports place operand (List.mem_cons_of_mem _ (List.mem_append_left _ hMem))
    · intro place operand hMem
      exact hReports place operand (List.mem_cons_of_mem _ (List.mem_append_right _ hMem))
  · rintro ⟨hTop, hInLeft, hInRight⟩ place operand hMem observed hObserved
    rcases List.mem_cons.mp hMem with hSame | hMem
    · cases hSame
      rw [h] at hObserved
      cases hObserved
      rw [hTop]
      exact hType
    · rcases List.mem_append.mp hMem with hMem | hMem
      · exact hInLeft place operand hMem observed hObserved
      · exact hInRight place operand hMem observed hObserved

/-- The types observed are the checked ones exactly when no operator drops a unit. -/
theorem reportsChecked_iff (expression : Expression) : ∀ {path : String} {type : ValueType}
    {observation : Observation}, expressionType strategy path expression = .ok type →
    self.scalar datasetId asOf candidateAsset expression = .ok observation →
    (ReportsChecked strategy path expression self datasetId asOf candidateAsset ↔
      KeepsUnits strategy path expression) := by
  induction expression using Expression.arithmetic_induction with
  | leaf expression hLeaf =>
      intro path type observation hType h
      constructor
      · intro _ place operator left right hMem
        rw [Expression.operandsAt_leaf hLeaf, List.mem_singleton] at hMem
        exact absurd ⟨operator, left, right, (Prod.mk.inj hMem).2.symm⟩ hLeaf
      · intro _ place operand hMem observed hObserved
        rw [Expression.operandsAt_leaf hLeaf, List.mem_singleton] at hMem
        cases hMem
        rw [scalar_type_leaf hLeaf hType hObserved]
        exact hType
  | node operator left right ihLeft ihRight =>
      intro path type observation hType h
      obtain ⟨leftType, hLeftType, hRest⟩ := except_bind_ok.mp hType
      obtain ⟨rightType, hRightType, hResult⟩ := except_bind_ok.mp hRest
      obtain ⟨first, hFirst, hRest⟩ := except_bind_ok.mp h
      obtain ⟨second, hSecond, hRest⟩ := except_bind_ok.mp hRest
      obtain ⟨observed, -, hObservation⟩ := except_bind_ok.mp hRest
      have hReported : observation.type = resultType operator first.type second.type := by
        cases hObservation
        rfl
      rw [keepsUnits_arithmetic hLeftType hRightType, reportsChecked_arithmetic hType h,
        ihLeft hLeftType hFirst, ihRight hRightType hSecond]
      refine and_congr_left ?_
      rintro ⟨hKeepsLeft, hKeepsRight⟩
      -- the operands keep their units, so they report their checked types
      have hFirstType := (ihLeft hLeftType hFirst).mpr hKeepsLeft _ _
        (Expression.mem_operandsAt _ _) _ hFirst
      have hSecondType := (ihRight hRightType hSecond).mpr hKeepsRight _ _
        (Expression.mem_operandsAt _ _) _ hSecond
      rw [hLeftType] at hFirstType
      rw [hRightType] at hSecondType
      rw [hReported, ← Except.ok.inj hFirstType, ← Except.ok.inj hSecondType]
      exact resultType_eq_iff hResult

end Reports

section Compiled

variable {strategy : CanonicalStrategyV1} {allowed : Bool}

/-- The type of an executable value, as the checker names it. -/
def checkedType : LeanValueType → ValueType
  | .decimal => .decimal
  | .percentage => .percentage
  | .moneyPerShare => .moneyPerShare

theorem checkedType_executable {type : ValueType} {compiled : LeanValueType}
    (h : executableType type = some compiled) : checkedType compiled = type := by
  cases type <;> simp [executableType] at h <;> subst h <;> rfl

theorem seriesPrice_type {inner : Expression} {path : String} {type : ValueType}
    (h : (expressionType strategy (path ++ ".series") (.marketSeries .price inner) >>=
      seriesScalarType path) = .ok type) : type = .moneyPerShare := by
  obtain ⟨seriesType, hSeries, hType⟩ := except_bind_ok.mp h
  obtain ⟨actual, -, hSeries⟩ := except_bind_ok.mp hSeries
  obtain ⟨_, -, hSeries⟩ := except_bind_ok.mp hSeries
  cases hSeries
  exact (Except.ok.inj hType).symm

/-- What an expression without arithmetic compiles to has its checked type. -/
theorem compileValue_type_leaf {expression : Expression} (hLeaf : ¬ expression.IsArithmetic)
    {path : String} {type : ValueType} {value : ExecutableValue}
    (hType : expressionType strategy path expression = .ok type)
    (h : compileValue allowed expression = .ok value) : checkedType value.valueType = type := by
  cases expression with
  | arithmetic operator left right => exact absurd ⟨operator, left, right, rfl⟩ hLeaf
  | literal valueType literal =>
      simp only [compileValue] at h
      split at h
      · cases h
      · next compiled hExecutable =>
          obtain ⟨number, -, h⟩ := except_bind_ok.mp h
          cases h
          rw [← Except.ok.inj hType]
          exact checkedType_executable hExecutable
  | indicator indicatorId asset parameters =>
      simp only [compileValue] at h
      split at h
      · next hId =>
          subst hId
          obtain ⟨actual, -, hType⟩ := except_bind_ok.mp hType
          obtain ⟨_, -, hType⟩ := except_bind_ok.mp hType
          obtain ⟨⟨subject, symbol⟩, -, h⟩ := except_bind_ok.mp h
          obtain ⟨observations, -, h⟩ := except_bind_ok.mp h
          cases h
          exact (indicatorType_trailingReturn hType).symm
      · cases h
  | current inner =>
      cases inner with
      | marketSeries field subject =>
          cases field with
          | volume => simp [compileValue] at h
          | price =>
              obtain ⟨⟨kind, symbol⟩, -, h⟩ := except_bind_ok.mp h
              cases h
              exact (seriesPrice_type hType).symm
      | _ => simp [compileValue] at h
  | rollingAggregate operator inner windowObservations =>
      cases inner with
      | marketSeries field subject =>
          cases field with
          | volume => simp [compileValue] at h
          | price =>
              obtain ⟨⟨kind, symbol⟩, -, h⟩ := except_bind_ok.mp h
              cases h
              exact (seriesPrice_type hType).symm
      | _ => simp [compileValue] at h
  | _ => simp [compileValue] at h

theorem decimalLiteral_some {expression : Expression} {value : Value}
    (h : decimalLiteral expression = some value) : expression = .literal .decimal value := by
  cases expression with
  | literal valueType literal =>
      cases valueType <;> simp [decimalLiteral] at h
      rw [h]
  | _ => simp [decimalLiteral] at h

theorem readDecimal_ok {value : Value} {number : ExtendedDecimal}
    (h : readDecimal value = .ok number) : value.extended = some number := by
  unfold readDecimal at h
  rcases hRead : value.extended with _ | read
  · simp [hRead] at h
  · rw [hRead] at h
    exact congrArg some (Except.ok.inj h)

/-- A product that compiles is a compiled operand scaled by a decimal literal. -/
theorem compileValue_product {left right : Expression} {value : ExecutableValue}
    (h : compileValue allowed (.arithmetic .multiply left right) = .ok value) :
    ∃ operand scaled number factor, compileValue allowed operand = .ok scaled ∧
      number.extended = some factor ∧ value = compileValue.scaled scaled factor ∧
      ((operand = left ∧ right = .literal .decimal number) ∨
        (operand = right ∧ left = .literal .decimal number)) := by
  simp only [compileValue] at h
  rcases hRight : decimalLiteral right with _ | number
  · rcases hLeft : decimalLiteral left with _ | number
    · simp [hRight, hLeft] at h
    · rw [hRight, hLeft] at h
      obtain ⟨scaled, hScaled, h⟩ := except_bind_ok.mp h
      obtain ⟨factor, hFactor, h⟩ := except_bind_ok.mp h
      cases h
      exact ⟨right, scaled, number, factor, hScaled, readDecimal_ok hFactor, rfl,
        Or.inr ⟨rfl, decimalLiteral_some hLeft⟩⟩
  · rw [hRight] at h
    obtain ⟨scaled, hScaled, h⟩ := except_bind_ok.mp h
    obtain ⟨factor, hFactor, h⟩ := except_bind_ok.mp h
    cases h
    exact ⟨left, scaled, number, factor, hScaled, readDecimal_ok hFactor, rfl,
      Or.inl ⟨rfl, decimalLiteral_some hRight⟩⟩

theorem arithmeticType_scaled {other type : ValueType} {path : String} :
    (arithmeticType .multiply other .decimal path = .ok type → other = type) ∧
      (arithmeticType .multiply .decimal other path = .ok type → other = type) := by
  constructor <;> intro h <;> have hProduct := arithmeticType_multiply h
  · by_cases hOther : other = .decimal
    · subst hOther
      simpa [productType] using hProduct
    · simpa [productType, hOther] using hProduct
  · simpa [productType] using hProduct

/-- What an expression compiles to has its checked type. -/
theorem compileValue_type (expression : Expression) : ∀ {path : String} {type : ValueType}
    {value : ExecutableValue}, expressionType strategy path expression = .ok type →
    compileValue allowed expression = .ok value → checkedType value.valueType = type := by
  induction expression using Expression.arithmetic_induction with
  | leaf expression hLeaf =>
      intro path type value hType h
      exact compileValue_type_leaf hLeaf hType h
  | node operator left right ihLeft ihRight =>
      intro path type value hType h
      obtain ⟨leftType, hLeftType, hRest⟩ := except_bind_ok.mp hType
      obtain ⟨rightType, hRightType, hResult⟩ := except_bind_ok.mp hRest
      cases operator with
      | multiply =>
          obtain ⟨operand, scaled, number, factor, hScaled, -, rfl, ⟨rfl, rfl⟩ | ⟨rfl, rfl⟩⟩ :=
            compileValue_product h
          · cases hRightType
            exact (ihLeft hLeftType hScaled).trans (arithmeticType_scaled.1 hResult)
          · cases hLeftType
            exact (ihRight hRightType hScaled).trans (arithmeticType_scaled.2 hResult)
      | _ => simp [compileValue] at h

end Compiled

/-- Evidence reports the checked types of a value and of its operands exactly when no operator
within drops a unit. Compiled values always have the checked type. -/
theorem valueTypes_iff {strategy : CanonicalStrategyV1} {path : String} {expression : Expression}
    {type : ValueType} (hType : expressionType strategy path expression = .ok type) :
    (∀ (self : DatasetValueEvaluator) (request : ValueEvaluationRequest) evidence,
      request.expression = expression → self.evaluate request = .ok evidence →
        (evidence.valueType = type ∧
            ReportsChecked strategy path expression self request.datasetId request.asOf
              request.candidateAsset ↔
          KeepsUnits strategy path expression)) ∧
      ∀ allowed value, compileValue allowed expression = .ok value →
        checkedType value.valueType = type := by
  refine ⟨?_, fun allowed value h => compileValue_type expression hType h⟩
  intro self request evidence hExpression h
  subst hExpression
  obtain ⟨_, -, h⟩ := except_bind_ok.mp h
  obtain ⟨⟨kind, id⟩, -, h⟩ := except_bind_ok.mp h
  obtain ⟨observation, hScalar, h⟩ := except_bind_ok.mp h
  have hEvidence : evidence.valueType = observation.type := by
    cases h
    rfl
  rw [← reportsChecked_iff request.expression hType hScalar, and_iff_right_iff_imp, hEvidence]
  intro hReports
  have hTop := hReports path _ (Expression.mem_operandsAt path _) observation hScalar
  rw [hType] at hTop
  exact (Except.ok.inj hTop).symm

section Half

theorem twoSessions_ordered :
    ([⟨2024, 1, 2⟩, ⟨2024, 1, 3⟩].map CalendarDate.toOrdinal).Pairwise (· < ·) := by
  decide

/-- Closes of one symbol on two days. -/
def twoSessions : PriceFrame where
  dates := [⟨2024, 1, 2⟩, ⟨2024, 1, 3⟩]
  columns := Dict.empty.set "SPY" [some 100, some 110]
  ordered := twoSessions_ordered
  aligned := by simp [Dict.values, Dict.set, Dict.write, Dict.empty]

def blankStrategy : CanonicalStrategyV1 where
  metadata := { name := "Blank" }
  graph := { components := [] }
  entrypoints := []

/-- Half a price, with the half as a percentage. -/
def halfPrice : Expression :=
  .arithmetic .multiply (.literal .percentage (.decimal (.finite false 5 (-1))))
    (.current (.marketSeries .price (.literal .asset (.text "SPY"))))

def halfEvidence : Except EvaluationFailure SemanticValueEvidence :=
  (DatasetValueEvaluator.mk (Dict.empty.set "prices" twoSessions) (.exact id)).evaluate
    { datasetId := "prices", expression := halfPrice, asOf := ⟨2024, 1, 3⟩, context := .research }

theorem halfPrice_type : expressionType blankStrategy "value" halfPrice = .ok .moneyPerShare := rfl

theorem halfPrice_valueTypes :
    (∀ (self : DatasetValueEvaluator) (request : ValueEvaluationRequest) evidence,
      request.expression = halfPrice → self.evaluate request = .ok evidence →
        (evidence.valueType = .moneyPerShare ∧
            ReportsChecked blankStrategy "value" halfPrice self request.datasetId request.asOf
              request.candidateAsset ↔
          KeepsUnits blankStrategy "value" halfPrice)) ∧
      ∀ allowed value, compileValue allowed halfPrice = .ok value →
        checkedType value.valueType = .moneyPerShare :=
  valueTypes_iff halfPrice_type

/-- Half a price is money per share to the checker and a decimal in the evidence. -/
theorem halfPrice_reportsDecimal :
    expressionType blankStrategy "value" halfPrice = .ok .moneyPerShare ∧
      halfEvidence.toOption.map (fun evidence => (evidence.observed, evidence.valueType)) =
        some (55, .decimal) := by
  constructor
  · rfl
  · with_unfolding_all rfl

end Half

end RuleTrade.V1
