import RuleTrade.Backend.Cooldown

/-! The generated cooldown and its reference run. Their states are related session
by session, and every session of one is a session of the other. -/

namespace RuleTrade

open Library

section Ungated

variable (market : GeneratedMarket) (allows : String → String → Bool)

mutual

/-- Values are read without asking the gate. -/
theorem read_ungated (candidate : String) : ∀ value : LeanValue,
    value.read { market with cooldownAllows := allows } candidate = value.read market candidate
  | .literal _ _ => rfl
  | .currentPrice _ => rfl
  | .trailingReturn _ _ => rfl
  | .rollingPrice _ _ _ => rfl
  | .scale operand factor => by
      rw [LeanValue.read, LeanValue.read, read_ungated candidate operand]
      rfl
  | .weightedScore terms policy => by
      rw [LeanValue.read, LeanValue.read, readTerms_ungated candidate terms]
      rfl

theorem readTerms_ungated (candidate : String) : ∀ terms : List LeanScoreTerm,
    LeanValue.readTerms { market with cooldownAllows := allows } candidate terms =
      LeanValue.readTerms market candidate terms
  | [] => rfl
  | .mk value weight :: rest => by
      rw [LeanValue.readTerms, LeanValue.readTerms, read_ungated candidate value,
        readTerms_ungated candidate rest]

end

theorem holds_ungated (candidate : String) (comparison : LeanComparison) :
    comparison.holds { market with cooldownAllows := allows } candidate =
      comparison.holds market candidate := by
  rw [LeanComparison.holds, LeanComparison.holds, read_ungated market allows candidate comparison.left,
    read_ungated market allows candidate comparison.right]

theorem signalCandidates_ungated (s : LeanMomentumSelection) :
    s.signalCandidates { market with cooldownAllows := allows } = s.signalCandidates market := by
  have hScores : s.scores { market with cooldownAllows := allows } = s.scores market := by
    simp only [LeanMomentumSelection.scores, read_ungated]
  have hEligible : s.eligibilityHolds { market with cooldownAllows := allows } =
      s.eligibilityHolds market := by
    funext ticker
    simp only [LeanMomentumSelection.eligibilityHolds, List.all_eq, holds_ungated]
  have hPasses : s.passes { market with cooldownAllows := allows } = s.passes market := by
    funext entry
    rw [LeanMomentumSelection.passes, LeanMomentumSelection.passes, hEligible]
    rfl
  rw [LeanMomentumSelection.signalCandidates, LeanMomentumSelection.signalCandidates,
    LeanMomentumSelection.rebalanceInput, LeanMomentumSelection.rebalanceInput, hScores, hPasses]

theorem branch_ungated (rebalance : LeanRebalance) :
    rebalance.branch { market with cooldownAllows := allows } = rebalance.branch market := by
  have hTruth : LeanComparison.truth { market with cooldownAllows := allows } =
      LeanComparison.truth market := by
    funext comparison
    rw [LeanComparison.truth, LeanComparison.truth, read_ungated market allows "" comparison.left,
      read_ungated market allows "" comparison.right]
  have hHolds : LeanComparison.holds { market with cooldownAllows := allows } "" =
      LeanComparison.holds market "" := by
    funext comparison
    exact holds_ungated market allows "" comparison
  rw [LeanRebalance.branch, LeanRebalance.branch, LeanRebalance.outcome, LeanRebalance.outcome,
    hTruth, hHolds]
  rfl

end Ungated

section Candidates

variable {market : GeneratedMarket} {s : LeanMomentumSelection}

theorem ranked_perm (s : LeanMomentumSelection) (scored : List (String × ℚ)) :
    (s.rank scored).Perm (scored.map Prod.fst) := by
  rw [LeanMomentumSelection.rank]
  cases s.direction with
  | descending =>
      exact ((Sequence.perm_sortByDescending _ _).trans (Sequence.perm_sortBy _ _)).map _
  | ascending => exact ((Sequence.perm_sortBy _ _).trans (Sequence.perm_sortBy _ _)).map _

theorem rebalanceInput_sublist (s : LeanMomentumSelection) (market : GeneratedMarket) :
    (s.rebalanceInput market).Sublist (s.scores market).entries := by
  rw [LeanMomentumSelection.rebalanceInput]
  split_ifs
  · exact List.filter_sublist
  · exact List.Sublist.refl _

/-- Candidates are keys of one dictionary. -/
theorem nodup_signalCandidates (s : LeanMomentumSelection) (market : GeneratedMarket) :
    (s.signalCandidates market).Nodup := by
  apply List.Nodup.sublist (List.take_sublist _ _)
  rw [(ranked_perm s _).nodup_iff]
  exact (s.scores market).nodup.sublist ((rebalanceInput_sublist s market).map _)

theorem mem_symbols_of_signalCandidates {ticker : String}
    (h : ticker ∈ s.signalCandidates market) : ticker ∈ s.symbols := by
  have hRanked := (ranked_perm s _).mem_iff.mp (List.mem_of_mem_take h)
  have hScored := ((rebalanceInput_sublist s market).map Prod.fst).subset hRanked
  obtain ⟨entry, hEntry, rfl⟩ := List.mem_map.mp (Dict.mem_keys_ofList.mp hScored)
  obtain ⟨symbol, hSymbol, hRead⟩ := List.mem_filterMap.mp hEntry
  obtain ⟨value, -, rfl⟩ := Option.map_eq_some_iff.mp hRead
  exact hSymbol

end Candidates

section Observing

variable {targets : Dict String ℚ} {index : Int} {identity : String} {store : CooldownStore}

open CooldownStore

theorem hadTarget_observe (ticker other : String) :
    (store.observe targets index identity ticker).hadTarget other =
      if other = ticker then hasTarget targets other else store.hadTarget other := by
  rw [hadTarget, observe, Dict.get?_set]
  by_cases hSame : other = ticker
  · subst hSame
    rw [if_pos rfl, if_pos rfl, Option.any_some]
    cases hHas : hasTarget targets other with
    | false => simp
    | true =>
        rw [if_pos rfl]
        rw [hasTarget] at hHas
        cases hTarget : targets.get? other with
        | none =>
            rw [hTarget] at hHas
            cases hHas
        | some weight =>
            rw [hTarget] at hHas
            rw [Dict.getD, hTarget]
            exact hHas
  · rw [if_neg hSame, if_neg hSame]
    rfl

/-- A ticker that has been observed does not exit again. -/
theorem exits_observe (ticker other : String) :
    (store.observe targets index identity ticker).exits targets other =
      (decide (other ≠ ticker) && store.exits targets other) := by
  rw [CooldownStore.exits, hadTarget_observe, CooldownStore.exits]
  by_cases hSame : other = ticker
  · rw [if_pos hSame, decide_eq_false (not_not.mpr hSame)]
    cases hasTarget targets other <;> rfl
  · rw [if_neg hSame, decide_eq_true hSame]
    rfl

theorem lastExitSession_observe (ticker other : String) :
    (store.observe targets index identity ticker).lastExitSession.get? other =
      if other = ticker ∧ store.exits targets ticker = true then some index
      else store.lastExitSession.get? other := by
  show (if store.exits targets ticker then store.lastExitSession.set ticker index
    else store.lastExitSession).get? other = _
  by_cases hExit : store.exits targets ticker = true
  · rw [if_pos hExit, Dict.get?_set]
    simp [hExit]
  · rw [if_neg hExit, if_neg (fun h => hExit h.2)]

theorem lastExitDate_observe (ticker other : String) :
    (store.observe targets index identity ticker).lastExitDate.get? other =
      if other = ticker ∧ store.exits targets ticker = true then some identity
      else store.lastExitDate.get? other := by
  show (if store.exits targets ticker then store.lastExitDate.set ticker identity
    else store.lastExitDate).get? other = _
  by_cases hExit : store.exits targets ticker = true
  · rw [if_pos hExit, Dict.get?_set]
    simp [hExit]
  · rw [if_neg hExit, if_neg (fun h => hExit h.2)]

variable (targets index identity) in
/-- What a pass over tickers does to one of them, however often it occurs. -/
theorem observeAll_spec (tickers : List String) (store : CooldownStore) (other : String) :
    let observed := store.observeAll targets index identity tickers
    (observed.1.hadTarget other =
      if other ∈ tickers then hasTarget targets other else store.hadTarget other) ∧
    (observed.1.lastExitSession.get? other =
      if other ∈ tickers ∧ store.exits targets other = true then some index
      else store.lastExitSession.get? other) ∧
    (observed.1.lastExitDate.get? other =
      if other ∈ tickers ∧ store.exits targets other = true then some identity
      else store.lastExitDate.get? other) ∧
    (other ∈ observed.2 ↔ other ∈ tickers ∧ store.exits targets other = true) := by
  induction tickers generalizing store with
  | nil => simp [observeAll]
  | cons ticker rest ih =>
      obtain ⟨hHad, hSession, hDate, hExits⟩ := ih (store.observe targets index identity ticker)
      simp only [observeAll]
      refine ⟨?_, ?_, ?_, ?_⟩
      · rw [hHad, hadTarget_observe]
        by_cases hSame : other = ticker <;> by_cases hLater : other ∈ rest <;>
          simp [hSame, hLater]
      · rw [hSession, lastExitSession_observe, exits_observe]
        by_cases hSame : other = ticker
        · subst hSame
          simp
        · simp [hSame]
      · rw [hDate, lastExitDate_observe, exits_observe]
        by_cases hSame : other = ticker
        · subst hSame
          simp
        · simp [hSame]
      · have hRest : other ∈ (observeAll targets index identity
            (store.observe targets index identity ticker) rest).2 ↔
            other ∈ rest ∧ other ≠ ticker ∧ store.exits targets other = true := by
          rw [hExits, exits_observe, Bool.and_eq_true, decide_eq_true_iff]
        by_cases hSame : other = ticker
        · subst hSame
          split_ifs with hExit
          · simp [hExit]
          · simp [hRest, hExit]
        · split_ifs with hExit
          · simp [hRest, hSame]
          · simp [hRest, hSame]

end Observing

section Gated

/-- A plan whose rebalance invests in one gated sleeve, as the lowering builds it:
the sleeve takes the whole weight, and the state tracks what the selection ranks. -/
structure LeanPlan.Gates (plan : LeanPlan) (rebalance : LeanRebalance) (sleeve : LeanTargetSleeve)
    (selection : LeanMomentumSelection) (state : LeanCooldownState) : Prop where
  sleeveIds : rebalance.sleeveIds = [sleeve.id]
  exitStateIds : rebalance.exitStateIds = [state.id]
  findsSleeve : plan.sleeve? sleeve.id = some sleeve
  selectionId : sleeve.selectionId = some selection.id
  findsSelection : plan.selection? selection.id = some selection
  cooldownStateId : selection.cooldownStateId = some state.id
  findsState : plan.cooldownState? state.id = some state
  weightingMethod : sleeve.weightingMethod = .equal
  fallbackSymbols : sleeve.fallbackSymbols = []
  totalWeight : sleeve.totalWeight = 1
  symbols : state.symbols = selection.symbols

/-- Numbers under which a share of the whole stays a positive share. -/
structure GeneratedNumbers.Shares (numbers : GeneratedNumbers) (ctx : DecimalContext) : Prop where
  context : numbers.context = ctx
  one : numbers.literal 1 = 1
  positive : ∀ n : Nat, 0 < n → 0 < ctx.quot 1 n

variable {ctx : DecimalContext} {numbers : GeneratedNumbers} {plan : LeanPlan}
  {rebalance : LeanRebalance} {sleeve : LeanTargetSleeve} {selection : LeanMomentumSelection}
  {state : LeanCooldownState} {market : GeneratedMarket} {fields : CooldownFields}

/-- Distinct members each get one weight. -/
theorem entries_contribute {members : List String} (hNodup : members.Nodup) (weight : ℚ) :
    (members.foldl (fun targets ticker => contribute numbers targets ticker weight)
      Dict.empty).entries = members.map (fun ticker => (ticker, weight)) := by
  induction members using List.reverseRecOn with
  | nil => rfl
  | append_singleton members ticker ih =>
      rw [List.nodup_append] at hNodup
      have hEntries := ih hNodup.1
      rw [List.foldl_append, List.foldl_cons, List.foldl_nil, List.map_append]
      have hFresh : ticker ∉ (members.foldl (fun targets ticker =>
          contribute numbers targets ticker weight) Dict.empty).keys := by
        rw [Dict.keys, hEntries, List.map_map]
        intro hMem
        obtain ⟨other, hOther, hSame⟩ := List.mem_map.mp hMem
        exact hNodup.2.2 other hOther ticker (by simp) hSame
      rw [contribute, Dict.get?_eq_none_iff.mpr hFresh]
      change Dict.write _ _ _ = _
      rw [Dict.write_of_notMem hFresh, hEntries]
      rfl

/-- Selected candidates are those the gate lets through. -/
def CooldownFields.selectedBy (fields : CooldownFields) (state : LeanCooldownState)
    (candidates : List String) : List String :=
  candidates.filter (fun ticker => (fields.check state ticker).decision = .eligible)

/-- A gated selection without a fallback is never skipped. -/
theorem rebalanceStage_gated {stateId : String} (h : selection.cooldownStateId = some stateId) :
    selection.rebalanceStage market [] =
      some ((selection.signalCandidates market).filter (market.cooldownAllows stateId)) := by
  rw [LeanMomentumSelection.rebalanceStage, LeanMomentumSelection.afterCooldown, h]
  rfl

theorem sleeveMembers_gate (hGates : plan.Gates rebalance sleeve selection state) :
    sleeveMembers (fields.gate plan market) plan sleeve =
      some (fields.selectedBy state (selection.signalCandidates market)) := by
  have hCandidates : selection.signalCandidates (fields.gate plan market) =
      selection.signalCandidates market := signalCandidates_ungated market _ selection
  have hAllows : (fields.gate plan market).cooldownAllows state.id = fun ticker =>
      decide ((fields.check state ticker).decision = .eligible) := by
    funext ticker
    simp only [CooldownFields.gate, hGates.findsState, Option.all_some]
  rw [sleeveMembers, hGates.selectionId]
  show (do
    let selection ← plan.selection? selection.id
    selection.rebalanceStage (fields.gate plan market) sleeve.fallbackSymbols) = _
  rw [hGates.findsSelection, hGates.fallbackSymbols]
  show selection.rebalanceStage (fields.gate plan market) [] = _
  rw [rebalanceStage_gated hGates.cooldownStateId, hCandidates, hAllows]
  rfl

variable (fields) in
/-- The targets of a gated rebalance: equal shares of what was selected. -/
theorem targets_gate (hGates : plan.Gates rebalance sleeve selection state)
    (hNumbers : market.numbers.Shares ctx) (hBranch : rebalance.branch market = .thenBranch) :
    ∃ targets, rebalance.targets (fields.gate plan market) plan = some targets ∧
      targets.entries = (fields.selectedBy state (selection.signalCandidates market)).map
        (fun ticker => (ticker, ctx.quot 1
          (fields.selectedBy state (selection.signalCandidates market)).length)) := by
  generalize hMembers : fields.selectedBy state (selection.signalCandidates market) = members
  have hNodup : members.Nodup := hMembers ▸ (nodup_signalCandidates selection market).filter _
  have hWeight (ticker : String) : memberWeight (fields.gate plan market) plan sleeve members ticker =
      some (ctx.quot 1 members.length) := by
    rw [memberWeight, hGates.weightingMethod, hGates.totalWeight]
    show some (market.numbers.context.quot (market.numbers.literal 1) members.length) = _
    rw [hNumbers.context, hNumbers.one]
  have hInvest : investSleeve (fields.gate plan market) plan Dict.empty sleeve.id =
      some (members.foldl (fun targets ticker =>
        contribute market.numbers targets ticker (ctx.quot 1 members.length)) Dict.empty) := by
    rw [investSleeve, hGates.findsSleeve]
    show (do
      let members ← sleeveMembers (fields.gate plan market) plan sleeve
      members.foldlM (fun targets ticker => do
        let weight ← memberWeight (fields.gate plan market) plan sleeve members ticker
        some (contribute market.numbers targets ticker weight)) Dict.empty) = _
    rw [sleeveMembers_gate hGates, hMembers]
    show members.foldlM (fun targets ticker => do
        let weight ← memberWeight (fields.gate plan market) plan sleeve members ticker
        some (contribute market.numbers targets ticker weight)) Dict.empty = _
    simp only [hWeight]
    exact List.foldlM_pure
  refine ⟨members.foldl (fun targets ticker =>
    contribute market.numbers targets ticker (ctx.quot 1 members.length)) Dict.empty, ?_,
    entries_contribute hNodup _⟩
  rw [LeanRebalance.targets, CooldownFields.gate, branch_ungated, hBranch, hGates.sleeveIds]
  show (do
    let targets ← investSleeve (fields.gate plan market) plan Dict.empty sleeve.id
    some targets) = _
  rw [hInvest]
  rfl

end Gated

section Simulation

variable {ctx : DecimalContext} {plan : LeanPlan} {rebalance : LeanRebalance}
  {sleeve : LeanTargetSleeve} {selection : LeanMomentumSelection} {state : LeanCooldownState}
  {market : GeneratedMarket} {fields : CooldownFields} {trace : CooldownTrace} {index : Int}

/-- The dictionaries of a state hold what the reference loop carries. -/
structure CooldownStore.Follows (store : CooldownStore) (state : LeanCooldownState)
    (trace : CooldownTrace) : Prop where
  session : ∀ ticker, store.lastExitSession.get? ticker = (trace.lastExit.get? ticker).map Prod.fst
  date : ∀ ticker, store.lastExitDate.get? ticker = (trace.lastExit.get? ticker).map Prod.snd
  held : ∀ ticker, store.hadTarget ticker = true ↔ ticker ∈ trace.previousTargets
  tracked : ∀ ticker ∈ trace.previousTargets, ticker ∈ state.symbols

/-- Counter and dictionaries before a session of this index. -/
structure CooldownFields.Simulates (fields : CooldownFields) (state : LeanCooldownState)
    (trace : CooldownTrace) (sessionIndex : Int) : Prop where
  counter : fields.tradingSessionIndex + 1 = sessionIndex
  store : (fields.store state.id).Follows state trace

/-- One execution of the generated code is one session of the reference. -/
structure CooldownExecution.Agrees (stateId : String) (execution : CooldownExecution)
    (decided : CooldownEvent) : Prop where
  event : execution.event = decided.event
  eligibility : execution.eligibility = decided.eligibility
  selected : execution.selected = decided.selected
  targets : ∀ entry, entry ∈ execution.targets.entries ↔ entry ∈ decided.targets
  exits : ∀ entry, entry ∈ execution.exits ↔ entry.1 = stateId ∧ entry.2 ∈ decided.exits

/-- The gate sees the last exit and the sessions since it as the reference does. -/
theorem check_of_follows (hFollows : (fields.store state.id).Follows state trace) (ticker : String) :
    fields.check state ticker = trace.eligibility state.requiredCompletedSessions
      fields.tradingSessionIndex ticker := by
  rw [CooldownFields.check, CooldownStore.check, hFollows.session, hFollows.date,
    CooldownTrace.eligibility]
  cases trace.lastExit.get? ticker with
  | none => rfl
  | some exit => rfl

theorem get?_recordExits (exits : List String) (exit : Int × String)
    (lastExit : Dict String (Int × String)) (ticker : String) :
    (exits.foldl (fun lastExit asset => lastExit.set asset exit) lastExit).get? ticker =
      if ticker ∈ exits then some exit else lastExit.get? ticker := by
  induction exits generalizing lastExit with
  | nil => simp
  | cons asset rest ih =>
      rw [List.foldl_cons, ih, Dict.get?_set]
      by_cases hLater : ticker ∈ rest
      · rw [if_pos hLater, if_pos (List.mem_cons_of_mem asset hLater)]
      · rw [if_neg hLater]
        by_cases hSame : ticker = asset
        · rw [if_pos hSame, if_pos (hSame ▸ List.mem_cons_self)]
        · rw [if_neg hSame, if_neg]
          intro hMem
          rcases List.mem_cons.mp hMem with hHere | hThere
          · exact hSame hHere
          · exact hLater hThere

/-- Observing equal shares of the selected tickers keeps the stores together, and
records the exits of the reference. -/
theorem observeAll_follows (identity : String) {store : CooldownStore} {targets : Dict String ℚ}
    {decided : CooldownEvent} (hFollows : store.Follows state trace)
    (hHas : ∀ ticker, CooldownStore.hasTarget targets ticker = true ↔ ticker ∈ decided.selected)
    (hTracked : ∀ ticker ∈ decided.selected, ticker ∈ state.symbols)
    (hExits : ∀ ticker, ticker ∈ decided.exits ↔
      ticker ∈ trace.previousTargets ∧ ticker ∉ decided.selected)
    (hIndex : decided.sessionIndex = index) (hEvent : decided.event = identity) :
    (store.observeAll targets index identity state.symbols).1.Follows state (trace.observe decided) ∧
      ∀ ticker, ticker ∈ (store.observeAll targets index identity state.symbols).2 ↔
        ticker ∈ decided.exits := by
  have hExit (ticker : String) : ticker ∈ state.symbols ∧ store.exits targets ticker = true ↔
      ticker ∈ decided.exits := by
    rw [hExits, CooldownStore.exits, Bool.and_eq_true, Bool.not_eq_true', hFollows.held,
      ← Bool.not_eq_true, hHas]
    constructor
    · intro h
      exact h.2
    · intro h
      exact ⟨hFollows.tracked ticker h.1, h⟩
  have hSpec (ticker : String) :=
    observeAll_spec targets index identity state.symbols store ticker
  have hRecorded (ticker : String) : (trace.observe decided).lastExit.get? ticker =
      if ticker ∈ decided.exits then some (index, identity) else trace.lastExit.get? ticker := by
    rw [← hIndex, ← hEvent]
    exact get?_recordExits _ _ _ _
  refine ⟨⟨fun ticker => ?_, fun ticker => ?_, fun ticker => ?_, fun ticker hHeld => ?_⟩,
    fun ticker => (hSpec ticker).2.2.2.trans (hExit ticker)⟩
  · rw [(hSpec ticker).2.1, hRecorded, hFollows.session]
    simp only [hExit]
    split_ifs <;> rfl
  · rw [(hSpec ticker).2.2.1, hRecorded, hFollows.date]
    simp only [hExit]
    split_ifs <;> rfl
  · rw [(hSpec ticker).1]
    show _ ↔ ticker ∈ decided.selected.dedup
    rw [List.mem_dedup]
    by_cases hSymbol : ticker ∈ state.symbols
    · rw [if_pos hSymbol, hHas]
    · rw [if_neg hSymbol, hFollows.held]
      -- an untracked ticker is held on neither side
      exact iff_of_false (fun h => hSymbol (hFollows.tracked ticker h))
        (fun h => hSymbol (hTracked ticker h))
  · exact hTracked ticker (List.mem_dedup.mp hHeld)

theorem selected_session (trace : CooldownTrace) (required : Nat) (sessionIndex : Int)
    (event : String) (candidates : List String) :
    (trace.session ctx required sessionIndex event candidates).selected =
      candidates.filter (fun ticker =>
        (trace.eligibility required sessionIndex ticker).decision = .eligible) := by
  show List.map CooldownEligibility.asset (List.filter _ (candidates.map _)) = _
  rw [List.filter_map, List.map_map]
  exact List.map_id _

theorem hasTarget_iff {targets : Dict String ℚ} {members : List String}
    (hPositive : ∀ n : Nat, 0 < n → 0 < ctx.quot 1 n)
    (hEntries : targets.entries = members.map (fun ticker => (ticker, ctx.quot 1 members.length)))
    (ticker : String) : CooldownStore.hasTarget targets ticker = true ↔ ticker ∈ members := by
  rw [CooldownStore.hasTarget]
  constructor
  · intro h
    cases hWeight : targets.get? ticker with
    | none =>
        rw [hWeight] at h
        cases h
    | some weight =>
    have hEntry := Dict.mem_of_get? hWeight
    rw [hEntries] at hEntry
    obtain ⟨member, hMember, hSame⟩ := List.mem_map.mp hEntry
    cases hSame
    exact hMember
  · intro hMember
    have hEntry : (ticker, ctx.quot 1 members.length) ∈ targets.entries := by
      rw [hEntries]
      exact List.mem_map.mpr ⟨ticker, hMember, rfl⟩
    rw [Dict.get?_of_mem hEntry, Option.any_some, decide_eq_true_iff]
    exact hPositive _ (List.length_pos_of_mem hMember)

theorem sleeveChecks_gate (hGates : plan.Gates rebalance sleeve selection state) :
    fields.sleeveChecks plan (fields.gate plan market) sleeve.id =
      (selection.signalCandidates market).map (fields.check state) := by
  simp only [CooldownFields.sleeveChecks, hGates.findsSleeve, Option.bind_some, hGates.selectionId,
    hGates.findsSelection, hGates.cooldownStateId, hGates.findsState]
  exact congrArg (List.map (fields.check state)) (signalCandidates_ungated market _ selection)

/-- Executing a gated rebalance invests in its sleeve and observes its state. -/
theorem execute_gate {targets : Dict String ℚ}
    (hGates : plan.Gates rebalance sleeve selection state)
    (hBranch : rebalance.branch market = .thenBranch)
    (hTargets : rebalance.targets (fields.gate plan market) plan = some targets)
    (identity : String) :
    fields.execute plan rebalance market identity =
      ({ fields with stores := fields.stores.set state.id ((fields.store state.id).observeAll
          targets fields.tradingSessionIndex identity state.symbols).1 },
        some
          { event := identity
            eligibility := fields.sleeveChecks plan (fields.gate plan market) sleeve.id
            selected := ((plan.sleeve? sleeve.id).bind
              (sleeveMembers (fields.gate plan market) plan)).getD []
            targets := targets
            exits := ((fields.store state.id).observeAll targets fields.tradingSessionIndex identity
              state.symbols).2.map (state.id, ·) }) := by
  have hPicked : rebalance.branch (fields.gate plan market) = .thenBranch := by
    rw [CooldownFields.gate, branch_ungated]
    exact hBranch
  have hObserve : CooldownFields.observeState plan targets identity (fields, []) state.id =
      ({ fields with stores := fields.stores.set state.id ((fields.store state.id).observeAll
          targets fields.tradingSessionIndex identity state.symbols).1 },
        ((fields.store state.id).observeAll targets fields.tradingSessionIndex identity
          state.symbols).2.map (state.id, ·)) := by
    rw [CooldownFields.observeState, hGates.findsState]
    rfl
  rw [CooldownFields.execute, hTargets, hPicked]
  simp only [ControlBranch.pick, hGates.sleeveIds, hGates.exitStateIds, List.foldl_cons,
    List.foldl_nil, List.flatMap_singleton, hObserve]

/-- An execution is the session that the reference decides on the same candidates. -/
theorem execute_agrees (hGates : plan.Gates rebalance sleeve selection state)
    (hNumbers : market.numbers.Shares ctx) (hBranch : rebalance.branch market = .thenBranch)
    (hFollows : (fields.store state.id).Follows state trace) (identity : String) :
    ∃ next execution, fields.execute plan rebalance market identity = (next, some execution) ∧
      execution.Agrees state.id (trace.session ctx state.requiredCompletedSessions
        fields.tradingSessionIndex identity (selection.signalCandidates market)) ∧
      (next.store state.id).Follows state
        (trace.observe (trace.session ctx state.requiredCompletedSessions
          fields.tradingSessionIndex identity (selection.signalCandidates market))) ∧
      next.tradingSessionIndex = fields.tradingSessionIndex ∧
      next.lastTradingSessionDate = fields.lastTradingSessionDate := by
  obtain ⟨targets, hTargets, hEntries⟩ :=
    targets_gate fields hGates hNumbers hBranch
  generalize hDecided : trace.session ctx state.requiredCompletedSessions
    fields.tradingSessionIndex identity (selection.signalCandidates market) = decided
  have hSelected : fields.selectedBy state (selection.signalCandidates market) =
      decided.selected := by
    rw [← hDecided, selected_session, CooldownFields.selectedBy]
    simp only [check_of_follows hFollows]
  rw [hSelected] at hEntries
  have hTracked : ∀ ticker ∈ decided.selected, ticker ∈ state.symbols := by
    intro ticker hTicker
    rw [← hSelected] at hTicker
    rw [hGates.symbols]
    exact mem_symbols_of_signalCandidates (List.mem_of_mem_filter hTicker)
  have hExits (ticker : String) : ticker ∈ decided.exits ↔
      ticker ∈ trace.previousTargets ∧ ticker ∉ decided.selected := by
    rw [← hDecided]
    show ticker ∈ Sequence.sortBy id (List.filter _ _) ↔ _
    rw [Sequence.mem_sortBy, List.mem_filter, decide_eq_true_iff]
    rfl
  have hIndex : decided.sessionIndex = fields.tradingSessionIndex := by
    rw [← hDecided]
    rfl
  have hEvent : decided.event = identity := by
    rw [← hDecided]
    rfl
  obtain ⟨hNext, hRecorded⟩ := observeAll_follows identity hFollows
    (hasTarget_iff hNumbers.positive hEntries) hTracked hExits hIndex hEvent
  have hChecks : fields.sleeveChecks plan (fields.gate plan market) sleeve.id =
      decided.eligibility := by
    rw [sleeveChecks_gate hGates, ← hDecided]
    exact List.map_congr_left (fun ticker _ => check_of_follows hFollows ticker)
  have hMembers : ((plan.sleeve? sleeve.id).bind
      (sleeveMembers (fields.gate plan market) plan)).getD [] = decided.selected := by
    rw [hGates.findsSleeve, Option.bind_some, sleeveMembers_gate hGates, Option.getD_some, hSelected]
  refine ⟨_, _, execute_gate hGates hBranch hTargets identity,
    ⟨hEvent.symm, hChecks, hMembers, ?_, ?_⟩, ?_, rfl, rfl⟩
  · intro entry
    have hShares : decided.targets = (Sequence.sortBy id decided.selected).map
        (fun asset => (asset, ctx.quot 1 decided.selected.length)) := by
      rw [← hDecided]
      rfl
    simp only [hEntries, hShares, List.mem_map, Sequence.mem_sortBy]
  · intro entry
    simp only [List.mem_map, hRecorded]
    constructor
    · rintro ⟨ticker, hTicker, rfl⟩
      exact ⟨rfl, hTicker⟩
    · rintro ⟨hState, hTicker⟩
      exact ⟨entry.2, hTicker, by rw [← hState]⟩
  · rw [CooldownFields.store, Dict.getD, Dict.get?_set, if_pos rfl]
    exact hNext

/-- Whether each session of a run, and nothing else, executes the event. -/
def DecidesEverySession : Option CalendarDate → List CooldownSlice → Prop
  | _, [] => True
  | last, slice :: rest =>
      if last ≠ some slice.date ∧ slice.isDateOpen = true then
        slice.event.isSome = true ∧ DecidesEverySession (some slice.date) rest
      else slice.event = none ∧ DecidesEverySession last rest

/-- The execution of a run, from states that are together. -/
theorem run_agrees (hGates : plan.Gates rebalance sleeve selection state)
    {candidatesByEvent : Dict String (List String)} {slices : List CooldownSlice}
    (hNumbers : ∀ slice ∈ slices, slice.market.numbers.Shares ctx)
    (hBranch : ∀ slice ∈ slices, slice.event.isSome = true →
      rebalance.branch slice.market = .thenBranch)
    (hCandidates : ∀ slice ∈ slices, ∀ event, slice.event = some event →
      candidatesByEvent.getD event [] = selection.signalCandidates slice.market)
    (hDecides : DecidesEverySession fields.lastTradingSessionDate slices)
    (hSimulates : fields.Simulates state trace index) :
    List.Forall₂ (CooldownExecution.Agrees state.id) (fields.run plan rebalance slices)
      (evaluateCooldownFrom ctx state.requiredCompletedSessions candidatesByEvent trace index
        (slices.filterMap CooldownSlice.event)) := by
  induction slices generalizing fields trace index with
  | nil => exact .nil
  | cons slice rest ih =>
      have hRest {next : CooldownFields} {later : CooldownTrace} {session : Int}
          (hDecides : DecidesEverySession next.lastTradingSessionDate rest)
          (hNext : next.Simulates state later session) :
          List.Forall₂ (CooldownExecution.Agrees state.id) (next.run plan rebalance rest)
            (evaluateCooldownFrom ctx state.requiredCompletedSessions candidatesByEvent later session
              (rest.filterMap CooldownSlice.event)) :=
        ih (fun slice h => hNumbers slice (List.mem_cons_of_mem _ h))
          (fun slice h => hBranch slice (List.mem_cons_of_mem _ h))
          (fun slice h => hCandidates slice (List.mem_cons_of_mem _ h)) hDecides hNext
      rw [DecidesEverySession] at hDecides
      split_ifs at hDecides with hOpens
      · -- a session: counted, executed, and decided by the reference
        obtain ⟨event, hEvent⟩ := Option.isSome_iff_exists.mp hDecides.1
        have hCounted : fields.countSession slice =
            { fields with
              tradingSessionIndex := fields.tradingSessionIndex + 1
              lastTradingSessionDate := some slice.date } := by
          rw [CooldownFields.countSession, CooldownFields.opensSession, decide_eq_true hOpens.1,
            hOpens.2]
          rfl
        have hFollows : ((fields.countSession slice).store state.id).Follows state trace := by
          rw [hCounted]
          exact hSimulates.store
        obtain ⟨next, execution, hExecute, hAgrees, hNext, hIndex, hDate⟩ :=
          execute_agrees hGates (hNumbers slice List.mem_cons_self)
            (hBranch slice List.mem_cons_self hDecides.1) hFollows event
        rw [hCounted] at hAgrees hNext hIndex hDate
        rw [show fields.tradingSessionIndex + 1 = index from hSimulates.counter] at hAgrees hNext hIndex
        rw [CooldownFields.run, CooldownFields.onData, hEvent, List.filterMap_cons_some hEvent,
          evaluateCooldownFrom]
        simp only [hExecute, hCandidates slice List.mem_cons_self event hEvent, Option.toList_some,
          List.singleton_append]
        refine .cons hAgrees (hRest ?_ ⟨?_, hNext⟩)
        · rw [hDate]
          exact hDecides.2
        · rw [hIndex]
      · -- neither a session nor an execution
        have hCounted : fields.countSession slice = fields := by
          rw [CooldownFields.countSession, CooldownFields.opensSession, if_neg]
          intro h
          rw [Bool.and_eq_true, decide_eq_true_iff] at h
          exact hOpens h
        rw [CooldownFields.run, CooldownFields.onData, hDecides.1,
          List.filterMap_cons_none hDecides.1, hCounted]
        exact hRest hDecides.2 hSimulates

end Simulation

section Example

def gatedSelection : LeanMomentumSelection where
  id := "cooldown"
  symbols := ["QQQ"]
  lookbackBars := 1
  count := 1
  cooldownStateId := some "cooldown$last_exit"

def gatedSleeve : LeanTargetSleeve where
  id := "weights"
  symbols := ["QQQ"]
  totalWeight := 1
  selectionId := some "cooldown"

def gatedState : LeanCooldownState where
  id := "cooldown$last_exit"
  componentId := "cooldown"
  symbols := ["QQQ"]
  requiredCompletedSessions := 20
  calendarSymbol := "QQQ"

def gatedRebalance : LeanRebalance where
  id := "rebalance"
  sleeveIds := ["weights"]
  exitStateIds := ["cooldown$last_exit"]

def gatedPlan : LeanPlan where
  strategyIdentity := "strategy"
  subscriptions := ["QQQ"]
  targetSleeves := [gatedSleeve]
  rebalances := [gatedRebalance]
  momentumSelections := [gatedSelection]
  cooldownStates := [gatedState]

theorem gatedPlan_gates :
    gatedPlan.Gates gatedRebalance gatedSleeve gatedSelection gatedState :=
  ⟨rfl, rfl, rfl, rfl, rfl, rfl, rfl, rfl, rfl, rfl, rfl⟩

def exactNumbers : GeneratedNumbers := ⟨.exact id, id, fun _ => ""⟩

theorem exactNumbers_shares : exactNumbers.Shares (.exact id) where
  context := rfl
  one := rfl
  positive := fun n hn => by
    rw [DecimalContext.exact_quot]
    exact one_div_pos.mpr (Nat.cast_pos.mpr hn)

/-- A session on a day of January, with closes that signal or none. -/
def gatedSlice (day : Nat) (closes : List ℚ) (event : String) : CooldownSlice where
  date := ⟨2024, 1, day⟩
  isDateOpen := true
  market := { numbers := exactNumbers, dailyCloses := Dict.ofList [("QQQ", closes)] }
  event := some event

/-- A ticker is held, leaves, and comes back too early. -/
def gatedRun : List CooldownSlice :=
  [gatedSlice 2 [2, 1] "2024-01-02", gatedSlice 3 [] "2024-01-03", gatedSlice 4 [2, 1] "2024-01-04"]

def gatedCandidates : Dict String (List String) :=
  Dict.ofList [("2024-01-02", ["QQQ"]), ("2024-01-03", []), ("2024-01-04", ["QQQ"])]

end Example

end RuleTrade
