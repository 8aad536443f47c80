import RuleTrade.Authoring.References

/-! Removals and references. A group that is removed may still be referred to
by what its operation did not look at. -/

namespace RuleTrade

open Library

namespace StrategyDraft

variable (strategy : StrategyDraft)

/-- Statements of the Program at every depth. -/
def statements : List ProgramStatement :=
  (strategy.program.map (fun program => allProgramStatements program.statements)).getD []

/-- Universes of all Selections, the older single one included. -/
def universes : List String :=
  strategy.selection.toList.map Selection.universeId ++
    (selectionsOf strategy.statements).map (fun s => s.selection.universeId)

/-- Groups that allocations target. -/
def groupTargets : List String :=
  (allocationsOf strategy.statements).flatMap AllocationStatement.groupRefs

/-- Selection outputs, and the outputs that allocations target. -/
def outputs : List String :=
  (selectionsOf strategy.statements).map SelectionStatement.outputId

def outputTargets : List String :=
  (allocationsOf strategy.statements).flatMap AllocationStatement.outputRefs

def groupIds : List String := strategy.definitions.groups.map Group.id

def assetSetIds : List String := strategy.definitions.assetSets.map AssetSet.id

/-- Groups name asset sets; universes and group targets name groups. -/
structure ReferencesIntact : Prop where
  assetSets : ∀ group ∈ strategy.definitions.groups, group.assetSetRef ∈ strategy.assetSetIds
  universes : ∀ universe' ∈ strategy.universes, universe' ∈ strategy.groupIds
  targets : ∀ target ∈ strategy.groupTargets, target ∈ strategy.groupIds

def OutputsKnown : Prop := ∀ target ∈ strategy.outputTargets, target ∈ strategy.outputs

/-- What an operation removes is referred to by nothing its guard passes over:
the older Selection, and for an investment any Selection, any group target, and
any other group over the same asset set. -/
def Spares : ProgramOperation → Prop
  | .removeProgramGroup groupId => ∀ s ∈ strategy.selection, s.universeId ≠ groupId
  | .removeProgramInvestment investmentId =>
      investmentId ∉ strategy.universes ∧ investmentId ∉ strategy.groupTargets ∧
        ∀ group ∈ strategy.definitions.group? investmentId,
          strategy.definitions.sharesAssets group = false
  | _ => True

end StrategyDraft

section Groups

variable {strategy : StrategyDraft} {definitions : DefinitionsDraft} {group : Group}
  {keepAssets : Bool}

theorem DefinitionsDraft.id_of_group? {definitions : DefinitionsDraft} {groupId : String}
    (h : definitions.group? groupId = some group) : group.id = groupId := by
  simpa using List.find?_some h

theorem withoutGroup_ok {old : DefinitionsDraft}
    (h : old.withoutGroup group keepAssets = .ok definitions) :
    definitions.groups = old.groups.filter (fun item => item.id ≠ group.id) ∧
      definitions.assetSets = if keepAssets then old.assetSets
        else old.assetSets.filter (fun item => item.id ≠ group.assetSetRef) := by
  unfold DefinitionsDraft.withoutGroup at h
  simp only at h
  split at h
  · cases h
  · rename_i hSets
    cases h
    exact ⟨rfl, hSets ▸ rfl⟩

theorem sharesAssets_iff {definitions : DefinitionsDraft} :
    definitions.sharesAssets group = true ↔
      ∃ item ∈ definitions.groups, item.id ≠ group.id ∧ item.assetSetRef = group.assetSetRef := by
  simp [DefinitionsDraft.sharesAssets]

/-- Without a group, the references that named it dangle and no others, save
that a group sharing a dropped asset set dangles too. -/
theorem intact_withoutGroup_iff (hIntact : strategy.ReferencesIntact)
    (hRemoved : strategy.definitions.withoutGroup group keepAssets = .ok definitions) :
    ({ strategy with definitions := definitions } : StrategyDraft).ReferencesIntact ↔
      group.id ∉ strategy.universes ∧ group.id ∉ strategy.groupTargets ∧
        (keepAssets = false → strategy.definitions.sharesAssets group = false) := by
  obtain ⟨hGroups, hSets⟩ := withoutGroup_ok hRemoved
  have hGone : group.id ∉ definitions.groups.map Group.id := by
    simp [hGroups]
  have hKept {id : String} (hId : id ∈ strategy.groupIds) (hNe : id ≠ group.id) :
      id ∈ definitions.groups.map Group.id := by
    obtain ⟨item, hItem, rfl⟩ := List.mem_map.mp hId
    rw [hGroups]
    exact List.mem_map_of_mem (List.mem_filter.mpr ⟨hItem, by simpa using hNe⟩)
  constructor
  · intro h
    refine ⟨fun hMem => hGone (h.universes _ hMem), fun hMem => hGone (h.targets _ hMem), ?_⟩
    intro hDropped
    rw [Bool.eq_false_iff, ne_eq, sharesAssets_iff]
    rintro ⟨item, hItem, hOther, hShared⟩
    have hNamed := h.assetSets item (by
      simp only [hGroups, List.mem_filter]
      exact ⟨hItem, by simpa using hOther⟩)
    simp only [StrategyDraft.assetSetIds, hSets, hDropped, hShared] at hNamed
    obtain ⟨set, hSet, hEq⟩ := List.mem_map.mp hNamed
    simp [hEq] at hSet
  · rintro ⟨hUniverses, hTargets, hUnshared⟩
    refine ⟨?_, ?_, ?_⟩
    · intro item hItem
      simp only [hGroups, List.mem_filter, decide_eq_true_eq] at hItem
      obtain ⟨set, hSet, hRef⟩ := List.mem_map.mp (hIntact.assetSets item hItem.1)
      rw [← hRef]
      apply List.mem_map_of_mem
      simp only [hSets]
      split_ifs with hKeep
      · exact hSet
      · refine List.mem_filter.mpr ⟨hSet, ?_⟩
        have hNotShared := hUnshared (by simpa using hKeep)
        rw [Bool.eq_false_iff, ne_eq, sharesAssets_iff] at hNotShared
        simp only [decide_eq_true_eq]
        intro hEq
        exact hNotShared ⟨item, hItem.1, hItem.2, hRef.symm.trans hEq⟩
    · intro id hId
      exact hKept (hIntact.universes id hId) (fun hEq => hUniverses (hEq ▸ hId))
    · intro id hId
      exact hKept (hIntact.targets id hId) (fun hEq => hTargets (hEq ▸ hId))

end Groups

section Programs

variable {strategy : StrategyDraft} {program changed : SemanticProgram}

/-- A Program whose Selections and allocations are all old ones refers to the
same groups. -/
theorem intact_of_contained (hIntact : strategy.ReferencesIntact)
    (hProgram : strategy.program = some program)
    (hContained : ∀ x : ProgramStatement, x.bodies = [] →
      x ∈ allProgramStatements changed.statements → x ∈ allProgramStatements program.statements) :
    ({ strategy with program := some changed } : StrategyDraft).ReferencesIntact := by
  have hStatements : strategy.statements = allProgramStatements program.statements := by
    simp [StrategyDraft.statements, hProgram]
  refine ⟨hIntact.assetSets, ?_, ?_⟩
  · intro id hId
    rcases List.mem_append.mp hId with hOlder | hProgramId
    · exact hIntact.universes id (List.mem_append_left _ hOlder)
    · obtain ⟨s, hs, rfl⟩ := List.mem_map.mp hProgramId
      apply hIntact.universes
      apply List.mem_append_right
      apply List.mem_map.mpr
      refine ⟨s, ?_, rfl⟩
      rw [hStatements]
      exact mem_selectionsOf.mpr (hContained _ rfl (mem_selectionsOf.mp hs))
  · intro id hId
    obtain ⟨a, ha, hRef⟩ := List.mem_flatMap.mp hId
    apply hIntact.targets
    apply List.mem_flatMap.mpr
    refine ⟨a, ?_, hRef⟩
    rw [hStatements]
    exact mem_allocationsOf.mpr (hContained _ rfl (mem_allocationsOf.mp ha))

theorem outputsKnown_of_validate (h : strategy.validate = []) : strategy.OutputsKnown := by
  intro target hTarget
  cases hProgram : strategy.program with
  | none => simp [StrategyDraft.outputTargets, StrategyDraft.statements, hProgram,
      allocationsOf] at hTarget
  | some program =>
      have hStatements : strategy.statements = allProgramStatements program.statements := by
        simp [StrategyDraft.statements, hProgram]
      simp only [StrategyDraft.outputTargets, hStatements] at hTarget
      obtain ⟨a, ha, hRef⟩ := List.mem_flatMap.mp hTarget
      obtain ⟨s, hs, rfl⟩ := (StrategyDraft.accepted_of_validate hProgram h).targets ha hRef
      simp only [StrategyDraft.outputs, hStatements]
      exact List.mem_map_of_mem hs

end Programs

section Operations

variable {strategy result : StrategyDraft} {program : SemanticProgram}

theorem contained_of_removed {semanticId : String}
    {removed : SemanticProgram × ProgramStatement}
    (h : removeProgramStatement semanticId program = .ok removed) (x : ProgramStatement)
    (hLeaf : x.bodies = []) (hMem : x ∈ allProgramStatements removed.1.statements) :
    x ∈ allProgramStatements program.statements := by
  rw [removeProgramStatement_ok h] at hMem
  exact mem_of_removed hLeaf hMem

/-- The guard of a group removal has looked at the whole Program. -/
theorem removeProgramGroup_ok {definitions old : DefinitionsDraft} {groupId : String}
    (h : removeProgramGroup old program groupId = .ok definitions) :
    ∃ group, old.group? groupId = some group ∧
      (∀ s ∈ selectionsOf (allProgramStatements program.statements),
        s.selection.universeId ≠ group.id) ∧
      (∀ a ∈ allocationsOf (allProgramStatements program.statements), group.id ∉ a.groupRefs) ∧
      old.withoutGroup group (old.sharesAssets group) = .ok definitions := by
  unfold removeProgramGroup at h
  split at h
  · cases h
  · rename_i group hGroup
    simp only at h
    split_ifs at h with hSelections hAllocations
    refine ⟨group, hGroup, ?_, ?_, h⟩
    · simpa using hSelections
    · simpa using hAllocations

theorem removeProgramInvestment_ok {definitions old : DefinitionsDraft} {investmentId : String}
    (h : removeProgramInvestment old program investmentId = .ok definitions) :
    ∃ group, old.group? investmentId = some group ∧
      old.withoutGroup group false = .ok definitions := by
  unfold removeProgramInvestment at h
  split at h
  · cases h
  · rename_i group hGroup
    split_ifs at h
    exact ⟨group, hGroup, h⟩

/-- One operation keeps the references exactly when it spares them. -/
theorem applied_intact_iff {operation : ProgramOperation} (hRemoves : operation.Removes)
    (hIntact : strategy.ReferencesIntact)
    (hApplied : applyProgramOperation strategy operation = .ok result) :
    result.ReferencesIntact ↔ strategy.Spares operation := by
  unfold applyProgramOperation at hApplied
  split at hApplied
  · cases hApplied
  · rename_i program hProgram
    have hStatements : strategy.statements = allProgramStatements program.statements := by
      simp [StrategyDraft.statements, hProgram]
    cases operation with
    | renameProgramSubgroup semanticId outputId => exact absurd hRemoves id
    | removeProgramGroup groupId =>
        obtain ⟨definitions, hRemoved, hResult⟩ := except_bind_ok.mp hApplied
        cases hResult
        obtain ⟨group, hGroup, hSelections, hAllocations, hWithout⟩ :=
          removeProgramGroup_ok hRemoved
        have hId := DefinitionsDraft.id_of_group? hGroup
        rw [intact_withoutGroup_iff hIntact hWithout]
        have hTargets : group.id ∉ strategy.groupTargets := by
          simp only [StrategyDraft.groupTargets, hStatements, List.mem_flatMap]
          rintro ⟨a, ha, hRef⟩
          exact hAllocations a ha hRef
        have hUniverses : group.id ∉ strategy.universes ↔
            ∀ s ∈ strategy.selection, s.universeId ≠ groupId := by
          simp only [StrategyDraft.universes, hStatements, List.mem_append, not_or]
          constructor
          · rintro ⟨hOlder, _⟩ s hs hEq
            exact hOlder (List.mem_map.mpr ⟨s, by simpa using hs, hEq.trans hId.symm⟩)
          · intro hOlder
            refine ⟨?_, ?_⟩
            · rintro hMem
              obtain ⟨s, hs, hEq⟩ := List.mem_map.mp hMem
              exact hOlder s (by simpa using hs) (hEq.trans hId)
            · rintro hMem
              obtain ⟨s, hs, hEq⟩ := List.mem_map.mp hMem
              exact hSelections s hs hEq
        rw [hUniverses]
        constructor
        · rintro ⟨hOlder, _⟩
          exact hOlder
        · intro hOlder
          exact ⟨hOlder, hTargets, id⟩
    | removeProgramInvestment investmentId =>
        obtain ⟨definitions, hRemoved, hResult⟩ := except_bind_ok.mp hApplied
        cases hResult
        obtain ⟨group, hGroup, hWithout⟩ := removeProgramInvestment_ok hRemoved
        obtain rfl := DefinitionsDraft.id_of_group? hGroup
        rw [intact_withoutGroup_iff hIntact hWithout]
        simp [StrategyDraft.Spares, hGroup]
    | removeProgramChoose semanticId =>
        obtain ⟨changed, hRemoved, hResult⟩ := except_bind_ok.mp hApplied
        cases hResult
        refine iff_of_true (intact_of_contained hIntact hProgram ?_) trivial
        unfold removeProgramChoose at hRemoved
        simp only at hRemoved
        split at hRemoved
        · cases hRemoved
        · split_ifs at hRemoved
          obtain ⟨removed, hDone, rfl⟩ := except_map_ok.mp hRemoved
          exact contained_of_removed hDone
    | removeProgramStatement semanticId =>
        obtain ⟨removed, hDone, hResult⟩ := except_bind_ok.mp hApplied
        cases hResult
        exact iff_of_true (intact_of_contained hIntact hProgram (contained_of_removed hDone))
          trivial
    | removeProgramInvestmentAllocation semanticId =>
        obtain ⟨changed, hRemoved, hResult⟩ := except_bind_ok.mp hApplied
        cases hResult
        refine iff_of_true (intact_of_contained hIntact hProgram ?_) trivial
        unfold removeProgramInvestmentAllocation at hRemoved
        split at hRemoved
        · obtain ⟨removed, hDone, rfl⟩ := except_map_ok.mp hRemoved
          exact contained_of_removed hDone
        · cases hRemoved

end Operations

section Main

/-- A removal that succeeds leaves every reference intact exactly when what it
removes is not referred to where its guard does not look. -/
theorem removal_references_iff (strategyHash : StrategyDraft → String)
    {request : ApplyV2AuthoringRequest} {response : ApplyV2AuthoringResponse}
    (hRemoves : request.operation.Removes) (hIntact : request.strategy.ReferencesIntact)
    (hApplied : applyV2Authoring strategyHash request = .ok response) :
    (response.strategy.ReferencesIntact ∧ response.strategy.OutputsKnown) ↔
      request.strategy.Spares request.operation := by
  obtain ⟨hResult, hValidated⟩ := applyV2Authoring_ok hApplied
  rw [applied_intact_iff hRemoves hIntact hResult]
  exact and_iff_left (outputsKnown_of_validate hValidated)

/-- Two groups over asset sets of their own. -/
def twoGroups : DefinitionsDraft where
  assetSets := [⟨"universe-assets", ["A"], List.nodup_singleton _⟩,
    ⟨"spare-assets", ["B"], List.nodup_singleton _⟩]
  groups := [⟨"universe", "Universe", "universe-assets"⟩, ⟨"spare", "Spare", "spare-assets"⟩]
  assetAxis := ⟨"universe", "member_identity"⟩

/-- A Selection over `universe` and its allocation, in the body of an Event. -/
def pickOnEvent : StrategyDraft where
  name := "strategy"
  definitions := twoGroups
  operatorLock := Dict.ofList [("compare", "1")]
  program := some (.daily [
    .onEvent "watch" { semanticId := "every-session", clockId := "daily", trigger := .scheduled } [
      .select {
        semanticId := "pick"
        selection := .anyOf 1 .chooseAll one_in_countRange
        outputId := "top"
        clockId := some "daily" },
      .allocate (.sole "hold" (.selection "top"))]])

theorem pickOnEvent_intact : pickOnEvent.ReferencesIntact :=
  ⟨by decide +kernel, by decide +kernel, by decide +kernel⟩

/-- The group nothing uses can go. -/
theorem removal_references_iff_spare :
    ∃ response, applyV2Authoring StrategyDraft.name
        ⟨pickOnEvent, "strategy", .removeProgramInvestment "spare"⟩ = .ok response ∧
      response.strategy.ReferencesIntact ∧ response.strategy.OutputsKnown := by
  have hChecked : (applyV2Authoring StrategyDraft.name
      ⟨pickOnEvent, "strategy", .removeProgramInvestment "spare"⟩).toOption.any
        (fun _ => true) = true := by decide +kernel
  obtain ⟨response, hApplied, -⟩ := exists_ok_of_any hChecked
  refine ⟨response, hApplied, ?_⟩
  have hRemoves : (ProgramOperation.removeProgramInvestment "spare").Removes := trivial
  apply (removal_references_iff StrategyDraft.name hRemoves pickOnEvent_intact hApplied).mpr
  show "spare" ∉ pickOnEvent.universes ∧ "spare" ∉ pickOnEvent.groupTargets ∧
    ∀ group ∈ pickOnEvent.definitions.group? "spare",
      pickOnEvent.definitions.sharesAssets group = false
  decide +kernel

/-- Removing the investment that a nested Selection chooses from succeeds, and
the Selection is left without its universe. -/
theorem removed_investment_dangles :
    ¬ ∀ (strategyHash : StrategyDraft → String) (request : ApplyV2AuthoringRequest)
        (response : ApplyV2AuthoringResponse),
      request.operation.Removes → request.strategy.ReferencesIntact →
      applyV2Authoring strategyHash request = .ok response →
      response.strategy.ReferencesIntact ∧ response.strategy.OutputsKnown := by
  intro hClaim
  have hChecked : (applyV2Authoring StrategyDraft.name
      ⟨pickOnEvent, "strategy", .removeProgramInvestment "universe"⟩).toOption.any
        (fun response => "universe" ∈ response.strategy.universes &&
          "universe" ∉ response.strategy.groupIds) = true := by decide +kernel
  obtain ⟨response, hApplied, hDangles⟩ := exists_ok_of_any hChecked
  obtain ⟨hUsed, hGone⟩ := (Bool.and_eq_true _ _).mp hDangles
  have hIntact := (hClaim _ _ _ (by trivial) pickOnEvent_intact hApplied).1
  exact (of_decide_eq_true hGone) (hIntact.universes _ (of_decide_eq_true hUsed))

end Main

end RuleTrade
