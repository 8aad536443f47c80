import RuleTrade.Strategy.Fragments
import RuleTrade.Execution.Portfolio

/-! The retain flag against target weights. Statements write weights or ask to
retain, and a later request leaves earlier weights standing, so the two meet
exactly when a decision retains after it has written. -/

namespace RuleTrade

open Library

section Weights

variable {ctx : DecimalContext}

theorem addWeights_ne_nil {entries : List (String × ℚ)} (h : entries ≠ []) :
    (addWeights ctx entries).entries ≠ [] := by
  cases entries with
  | nil => exact absurd rfl h
  | cons entry rest =>
      unfold addWeights
      rw [List.foldl_cons]
      exact Dict.foldl_set_ne_nil (Dict.set_entries_ne_nil _ _ _)

theorem Normalization.spread_ne_nil {raw : Dict String ℚ} {n : Normalization}
    (h : n.weights.entries ≠ []) : (n.spread ctx raw).weights.entries ≠ [] := by
  simp only [spread]
  split_ifs
  · exact Dict.foldl_set_ne_nil h
  · exact h

theorem Normalization.pin_weights (floor cap : ℚ) (n : Normalization) (asset : String) :
    (n.pin floor cap asset).weights = n.weights := by
  simp only [pin]
  split_ifs <;> rfl

theorem Normalization.pinAll_weights (floor cap : ℚ) (assets : List String) (n : Normalization) :
    (assets.foldl (pin floor cap) n).weights = n.weights := by
  induction assets generalizing n with
  | nil => rfl
  | cons asset rest ih => rw [List.foldl_cons, ih, pin_weights]

theorem Normalization.settle_ne_nil {raw : Dict String ℚ} {floor cap : ℚ} {rounds : Nat}
    {n : Normalization} (h : n.weights.entries ≠ []) :
    (n.settle ctx raw floor cap rounds).weights.entries ≠ [] := by
  induction rounds generalizing n with
  | zero => exact h
  | succ rounds ih =>
      have hRound : (n.round ctx raw floor cap).weights.entries ≠ [] := by
        rw [round, pinAll_weights]
        exact spread_ne_nil h
      simp only [settle]
      split_ifs
      · exact hRound
      · exact ih hRound

theorem closeRemainder_ne_nil {raw weights closed : Dict String ℚ} {cash : Option String}
    (hWeights : weights.entries ≠ []) (h : closeRemainder ctx raw weights cash = .ok closed) :
    closed.entries ≠ [] := by
  simp only [closeRemainder] at h
  split_ifs at h
  · split at h
    · cases h
      exact hWeights
    · cases h
      exact Dict.set_entries_ne_nil _ _ _
  · split at h
    · cases h
    · cases h
      exact Dict.set_entries_ne_nil _ _ _
  · cases h
    exact hWeights

theorem boundedNormalize_ne_nil {raw weights : Dict String ℚ} {low high : Option ℚ}
    {cash : Option String} (h : boundedNormalize ctx raw low high cash = .ok weights) :
    weights.entries ≠ [] := by
  simp only [boundedNormalize] at h
  split_ifs at h with hEmpty hFloor hCap
  refine closeRemainder_ne_nil (Dict.foldl_set_ne_nil (Normalization.settle_ne_nil ?_)) h
  intro hNil
  refine hEmpty (Or.inl ?_)
  simpa [Dict.mapValues, Dict.isEmpty] using hNil

/-- Written weights are never empty. -/
theorem methodWeights_ne_nil {d : Decision} {r : Runtime} {a : AllocationStatement}
    {expanded : List (String × Option ℚ)} {weights : Dict String ℚ} (hExpanded : expanded ≠ [])
    (h : methodWeights d r a expanded = .ok weights) : weights.entries ≠ [] := by
  unfold methodWeights at h
  cases hMethod : a.method with
  | equal =>
      simp only [hMethod, Except.ok.injEq] at h
      rw [← h]
      exact addWeights_ne_nil (by simpa using hExpanded)
  | fixed =>
      simp only [hMethod, Except.ok.injEq] at h
      rw [← h]
      exact addWeights_ne_nil (by simpa using hExpanded)
  | proportionalScore =>
      simp only [hMethod] at h
      exact boundedNormalize_ne_nil h
  | inverseVolatility =>
      simp only [hMethod] at h
      obtain ⟨raw, -, h⟩ := except_bind_ok.mp h
      exact boundedNormalize_ne_nil h

end Weights

theorem Writes.ne_nil {d : Decision} {found : Runtime} {source : AllocationStatement}
    {weights : Dict String ℚ} (h : Writes d found source weights) : weights.isEmpty = false := by
  obtain ⟨expanded, -, hExpanded, hMethod⟩ := h
  exact Dict.isEmpty_eq_false (methodWeights_ne_nil hExpanded hMethod)

/-- The last thing the decision does to the portfolio is to retain, and it has
written weights before. -/
def RetainsAfterWrite (d : Decision) (trace : List (Runtime × ProgramStatement)) : Prop :=
  (portfolioEffects d trace).getLast? = some .retained ∧ lastWrite d trace ≠ none

theorem foldl_retains (effects : List PortfolioEffect) :
    effects.foldl (fun _ effect => effect.retains) false = true ↔
      effects.getLast? = some .retained := by
  rcases List.eq_nil_or_concat effects with rfl | ⟨before, last, rfl⟩
  · simp
  · cases last <;> simp [List.foldl_append, PortfolioEffect.retains]

/-- A returned result keeps retained holdings and target weights apart exactly
when the decision does not retain after it has written weights. -/
theorem retain_exclusive_iff {ctx : DecimalContext} {program : SemanticProgram}
    {snapshot : DailyMarketSnapshot} {cutoffIndex : Option Int} {revisionId : Option String}
    {ck : Checkpoint} {result : ProgramExecutionResult}
    (h : executeProgramV2 ctx program snapshot cutoffIndex revisionId ck = .ok result) :
    ∃ d trace, EnteredBy (snapshot.environment ctx) program cutoffIndex ck d trace ∧
      (¬(result.retainedHoldings = true ∧ result.targetWeights.isEmpty = false) ↔
        ¬RetainsAfterWrite d trace) := by
  obtain ⟨-, cutoff, inRange, hRow, -, trace, final, observations, hTrace, rfl⟩ := executeIn_ok h
  refine ⟨_, trace, ⟨cutoff, inRange, final, hRow, rfl, hTrace⟩, not_congr ?_⟩
  have hWeights := weights_of_steps hTrace
  change final.retained = true ∧ final.targetWeights.isEmpty = false ↔ _
  rw [retained_of_steps hTrace, RetainsAfterWrite, ← foldl_retains]
  refine and_congr_right (fun _ => ?_)
  split at hWeights <;> rename_i hLast
  · rw [hWeights, hLast]
    have hStart : (ck.runtime program).targetWeights.isEmpty = true := rfl
    simp [hStart]
  · rw [hLast]
    exact ⟨fun _ => Option.some_ne_none _, fun _ => hWeights.ne_nil⟩

/-- Everything into cash, then a request to retain. -/
def cashThenRetain : SemanticProgram :=
  .daily [.allocate (.sole "cash" .cash), .allocate (.sole "keep" .retain)]

/-- A Friday and the Monday after it. -/
def fridayAndMonday : DailyMarketSnapshot :=
  .single "A" (⟨2024, 1, 5⟩, some 10) [(⟨2024, 1, 8⟩, some 11)]

/-- The result asks to retain and still carries the weights of the first allocation. -/
theorem retain_with_weights : ∃ result : ProgramExecutionResult,
    executeProgramV2 (DecimalContext.exact id) cashThenRetain fridayAndMonday = .ok result ∧
      result.retainedHoldings = true ∧ result.targetWeights.entries = [("CASH", 1)] := by
  have hChecked : (executeProgramV2 (DecimalContext.exact id) cashThenRetain
      fridayAndMonday).toOption.any (fun result =>
        result.retainedHoldings && result.targetWeights.entries = [("CASH", 1)]) = true := by
    decide +kernel
  obtain ⟨result, hExecuted, hMixed⟩ := exists_ok_of_any hChecked
  rw [Bool.and_eq_true, decide_eq_true_eq] at hMixed
  exact ⟨result, hExecuted, hMixed⟩

theorem retain_exclusive_iff_cash : ∃ d trace,
    EnteredBy (fridayAndMonday.environment (DecimalContext.exact id)) cashThenRetain none {} d
      trace ∧ RetainsAfterWrite d trace := by
  have hChecked : (executeProgramV2 (DecimalContext.exact id) cashThenRetain
      fridayAndMonday).toOption.any (fun result =>
        result.retainedHoldings && !result.targetWeights.isEmpty) = true := by
    decide +kernel
  obtain ⟨result, hExecuted, hMixed⟩ := exists_ok_of_any hChecked
  rw [Bool.and_eq_true, Bool.not_eq_true'] at hMixed
  obtain ⟨d, trace, hEntered, hIff⟩ := retain_exclusive_iff hExecuted
  exact ⟨d, trace, hEntered, not_not.mp (fun hNot => hIff.mpr hNot hMixed)⟩

end RuleTrade
