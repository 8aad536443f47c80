import RuleTrade.Authoring.References
import RuleTrade.Execution.Relabelling
import RuleTrade.Properties.CapitalConservation

/-! Renaming a selected Subgroup is a renaming of one output throughout the
Program, so every execution of the renamed Program is the old one renamed. -/

namespace RuleTrade

open Library

/-- Exchange two output names. On outputs among which `new` is not, this
renames `old` alone. -/
def exchange (old new : String) : String ↪ String := (Equiv.swap old new).toEmbedding

theorem exchange_of_ne {old new ref : String} (h : ref ≠ new ∨ new = old) :
    (if ref = old then new else ref) = exchange old new ref := by
  show _ = Equiv.swap old new ref
  split_ifs with hOld
  · rw [hOld, Equiv.swap_apply_left]
  · rcases h with hNew | rfl
    · rw [Equiv.swap_apply_of_ne_of_ne hOld hNew]
    · rw [Equiv.swap_self]
      rfl

section Syntax

theorem AllocationStatement.relabel_congr {f g : String → String} {a : AllocationStatement}
    (h : ∀ ref ∈ a.outputRefs, f ref = g ref) : a.relabel f = a.relabel g := by
  have hLegs : a.legs.map (AllocationLeg.relabel f) = a.legs.map (AllocationLeg.relabel g) := by
    apply List.map_congr_left
    intro leg hLeg
    unfold AllocationLeg.relabel
    cases hKind : leg.target.kind with
    | selection ref =>
        simp only [AllocationTargetKind.relabel, h ref (mem_outputRefs.mpr ⟨leg, hLeg, hKind⟩)]
    | _ => rfl
  simp only [AllocationStatement.relabel, hLegs]

theorem GuardedAllocationStatement.relabel_congr {f g : String → String}
    {s : GuardedAllocationStatement}
    (h : ∀ a ∈ s.actions, ∀ ref ∈ a.outputRefs, f ref = g ref) : s.relabel f = s.relabel g := by
  have hPrimary := AllocationStatement.relabel_congr (h s.primary (by
    simp [GuardedAllocationStatement.actions]))
  have hOverrides : s.overrides.map (OverrideRule.relabel f) =
      s.overrides.map (OverrideRule.relabel g) := by
    apply List.map_congr_left
    intro rule hRule
    unfold OverrideRule.relabel
    rw [AllocationStatement.relabel_congr (h rule.action (by
      simp only [GuardedAllocationStatement.actions, List.cons_append, List.mem_cons,
        List.mem_append]
      exact .inr (.inl (List.mem_map_of_mem hRule))))]
  have hFallback : s.fallback.map (AllocationStatement.relabel f) =
      s.fallback.map (AllocationStatement.relabel g) := by
    cases hCase : s.fallback with
    | none => rfl
    | some a =>
        exact congrArg some (AllocationStatement.relabel_congr (h a (by
          simp [GuardedAllocationStatement.actions, hCase])))
  simp only [GuardedAllocationStatement.relabel, hPrimary, hOverrides, hFallback]

/-- The rewrite of a rename relabels, when it treats every declared and every
targeted output as the relabelling does. -/
theorem rewritten_rename {semanticId old new : String} {f : String → String}
    {ss : List ProgramStatement}
    (hOutputs : ∀ s ∈ selectionsOf (allProgramStatements ss),
      (if s.semanticId = semanticId then new else s.outputId) = f s.outputId)
    (hTargets : ∀ a ∈ allocationsOf (allProgramStatements ss), ∀ ref ∈ a.outputRefs,
      (if ref = old then new else ref) = f ref) :
    rewrittenStatements (fun s => some (renameOutput semanticId old new s)) ss =
      relabelStatements f ss := by
  induction ss using ProgramStatement.list_induction with
  | hNil => rfl
  | hCons s rest hBodies hRest =>
      simp only [allProgramStatements, selectionsOf_append, allocationsOf_append,
        List.mem_append] at hOutputs hTargets
      have hTail := hRest (fun x hx => hOutputs x (.inr hx)) (fun a ha => hTargets a (.inr ha))
      have hHead : s.rewritten (fun s => some (renameOutput semanticId old new s)) =
          some (s.relabel f) := by
        cases s with
        | select s =>
            have hOutput := hOutputs s (.inl (by simp [ProgramStatement.flatten, mem_selectionsOf]))
            simp only [ProgramStatement.rewritten, renameOutput, ProgramStatement.relabel]
            rw [← hOutput]
            split_ifs <;> rfl
        | allocate a =>
            have hRefs := hTargets a (.inl (by simp [ProgramStatement.flatten, mem_allocationsOf]))
            simp only [ProgramStatement.rewritten, renameOutput, ProgramStatement.relabel]
            rw [AllocationStatement.relabel_congr hRefs]
        | guardedAllocation g =>
            have hRefs : ∀ a ∈ g.actions, ∀ ref ∈ a.outputRefs,
                (if ref = old then new else ref) = f ref := by
              intro a ha
              apply hTargets a
              left
              rw [mem_allocationsOf]
              exact List.mem_cons_of_mem _ (List.mem_map_of_mem ha)
            simp only [ProgramStatement.rewritten, renameOutput, ProgramStatement.relabel]
            rw [GuardedAllocationStatement.relabel_congr hRefs]
        | control head thenBody otherwiseBody =>
            simp only [selectionsOf_control, allocationsOf_control, List.mem_append]
              at hOutputs hTargets
            have hThen := hBodies thenBody (by simp [ProgramStatement.bodies])
              (fun x hx => hOutputs x (.inl (.inl hx))) (fun a ha => hTargets a (.inl (.inl ha)))
            have hOtherwise := hBodies otherwiseBody (by simp [ProgramStatement.bodies])
              (fun x hx => hOutputs x (.inl (.inr hx))) (fun a ha => hTargets a (.inl (.inr ha)))
            rw [ProgramStatement.rewritten, hThen, hOtherwise]
            rfl
        | onEvent id event body =>
            simp only [selectionsOf_onEvent, allocationsOf_onEvent] at hOutputs hTargets
            have hBody := hBodies body (by simp [ProgramStatement.bodies])
              (fun x hx => hOutputs x (.inl hx)) (fun a ha => hTargets a (.inl ha))
            rw [ProgramStatement.rewritten, hBody]
            rfl
        | _ => rfl
      simp only [rewrittenStatements, hHead, hTail, relabelStatements]

end Syntax

section Rename

variable {program renamed : SemanticProgram} {semanticId outputId : String}

/-- Everything a successful rename looked at. -/
theorem renameProgramSubgroup_ok
    (h : renameProgramSubgroup program semanticId outputId = .ok renamed) :
    ∃ selected ∈ selectionsOf (allProgramStatements program.statements),
      selected.semanticId = semanticId ∧
      (∀ s ∈ selectionsOf (allProgramStatements program.statements),
        s.outputId = outputId → s.semanticId = semanticId) ∧
      renamed = rewriteProgramStatements (fun statement =>
        some (renameOutput semanticId selected.outputId outputId statement)) program := by
  unfold renameProgramSubgroup at h
  simp only at h
  split at h
  · cases h
  · rename_i selected hFound
    have hId : selected.semanticId = semanticId := by simpa using List.find?_some hFound
    rw [hId] at h
    split_ifs at h with hTaken
    cases h
    refine ⟨selected, List.mem_of_find?_eq_some hFound, hId, ?_, rfl⟩
    intro s hs hSame
    by_contra hOther
    apply hTaken
    apply List.any_eq_true.mpr
    refine ⟨s, hs, ?_⟩
    simp [hOther, hSame]

/-- The outputs of the rewritten Program, in order. -/
theorem outputs_of_renamed {old : String} {ss : List ProgramStatement} :
    ProgramStatement.allOutputIds
        (rewrittenStatements (fun s => some (renameOutput semanticId old outputId s)) ss) =
      (selectionsOf (allProgramStatements ss)).map (fun s =>
        if s.semanticId = semanticId then outputId else s.outputId) := by
  induction ss using ProgramStatement.list_induction with
  | hNil => rfl
  | hCons s rest hBodies hRest =>
      simp only [allProgramStatements, selectionsOf_append, List.map_append, ← hRest]
      cases s with
      | control head thenBody otherwiseBody =>
          have hThen := hBodies thenBody (by simp [ProgramStatement.bodies])
          have hOtherwise := hBodies otherwiseBody (by simp [ProgramStatement.bodies])
          simp only [selectionsOf_control, List.map_append, ← hThen, ← hOtherwise]
          rfl
      | onEvent id event body =>
          have hBody := hBodies body (by simp [ProgramStatement.bodies])
          simp only [selectionsOf_onEvent, ← hBody]
          rfl
      | select s =>
          simp only [rewrittenStatements, ProgramStatement.rewritten, renameOutput,
            ProgramStatement.allOutputIds]
          congr 1
          by_cases hId : s.semanticId = semanticId
          · simp [hId, ProgramStatement.outputIds, ProgramStatement.flatten, selectionsOf,
              ProgramStatement.asSelection]
          · simp [hId, ProgramStatement.outputIds, ProgramStatement.flatten, selectionsOf,
              ProgramStatement.asSelection]
      | guardedAllocation g =>
          show ProgramStatement.allOutputIds _ =
            List.map _ (selectionsOf (g.actions.map ProgramStatement.allocate)) ++ _
          rw [selectionsOf_actions]
          rfl
      | _ => rfl

/-- Between accepted Programs a rename relabels one output throughout. -/
theorem renamed_eq_relabel (h : renameProgramSubgroup program semanticId outputId = .ok renamed)
    (hAccepted : Accepted program) (hRenamed : Accepted renamed) :
    ∃ selected ∈ selectionsOf (allProgramStatements program.statements),
      selected.semanticId = semanticId ∧
      (outputId ∈ ProgramStatement.allOutputIds program.statements →
        outputId = selected.outputId) ∧
      renamed = program.relabel (exchange selected.outputId outputId) := by
  obtain ⟨selected, hSelected, hId, hFree, rfl⟩ := renameProgramSubgroup_ok h
  -- Outputs are distinct before and after, so the address and the old output
  -- pick out one Selection each.
  have hBefore := hAccepted.outputs_nodup
  have hAfter := hRenamed.outputs_nodup
  rw [allOutputIds_eq] at hBefore
  rw [show (rewriteProgramStatements _ program).statements = rewrittenStatements _ _ from rfl,
    outputs_of_renamed] at hAfter
  have hSole : ∀ s ∈ selectionsOf (allProgramStatements program.statements),
      s.semanticId = semanticId → s = selected := by
    intro s hs hSame
    exact List.inj_on_of_nodup_map hAfter hs hSelected (by rw [if_pos hSame, if_pos hId])
  have hNew : outputId ∈ ProgramStatement.allOutputIds program.statements →
      outputId = selected.outputId := by
    intro hMem
    rw [allOutputIds_eq] at hMem
    obtain ⟨s, hs, rfl⟩ := List.mem_map.mp hMem
    rw [hSole s hs (hFree s hs rfl)]
  refine ⟨selected, hSelected, hId, hNew, ?_⟩
  unfold rewriteProgramStatements SemanticProgram.relabel
  congr 1
  apply rewritten_rename
  · intro s hs
    by_cases hSame : s.semanticId = semanticId
    · rw [if_pos hSame, hSole s hs hSame]
      exact (Equiv.swap_apply_left _ _).symm
    · rw [if_neg hSame]
      have hOld : s.outputId ≠ selected.outputId := by
        intro hEq
        exact hSame (List.inj_on_of_nodup_map hBefore hs hSelected hEq ▸ hId)
      have hOther : s.outputId ≠ outputId := by
        intro hEq
        exact hSame (hFree s hs hEq)
      exact (Equiv.swap_apply_of_ne_of_ne hOld hOther).symm
  · intro a ha ref hRef
    apply exchange_of_ne
    obtain ⟨s, hs, rfl⟩ := hAccepted.targets ha hRef
    by_cases hEq : s.outputId = outputId
    · right
      apply hNew
      rw [← hEq, allOutputIds_eq]
      exact List.mem_map_of_mem hs
    · exact .inl hEq

end Rename

section Declared

/-- Step lemma: only declared outputs are written. -/
theorem Effect.outputs_declared {d : Decision} {r r' : Runtime} {s : ProgramStatement}
    {body : List ProgramStatement} {declared : List String} (h : Effect d r s r' body)
    (hKeys : r.selections.keys ⊆ declared ∧ r.selectionScores.keys ⊆ declared)
    (hDeclared : s.outputIds ⊆ declared) :
    r'.selections.keys ⊆ declared ∧ r'.selectionScores.keys ⊆ declared := by
  cases h with
  | selected s hDue size scores outcome detail =>
      have hOutput : s.outputId ∈ declared := hDeclared (List.mem_singleton_self _)
      exact ⟨Dict.keys_set_subset hKeys.1 hOutput, Dict.keys_set_subset hKeys.2 hOutput⟩
  | allocated effect =>
      rw [effect.sameMaps.selections, effect.sameMaps.selectionScores]
      exact hKeys
  | guarded effect =>
      rw [effect.sameMaps.selections, effect.sameMaps.selectionScores]
      exact hKeys
  | _ => exact hKeys

theorem outputIds_of_body {s : ProgramStatement} {body : List ProgramStatement}
    (h : body ∈ s.bodies) : ProgramStatement.allOutputIds body ⊆ s.outputIds := by
  cases s with
  | control head thenBody otherwiseBody =>
      simp only [ProgramStatement.bodies, List.mem_cons, List.not_mem_nil, or_false] at h
      rcases h with rfl | rfl
      · exact List.subset_append_left _ _
      · exact List.subset_append_right _ _
  | onEvent id event statements =>
      obtain rfl := List.mem_singleton.mp h
      exact List.Subset.refl _
  | _ => cases h

theorem outputIds_of_mem {s : ProgramStatement} {ss : List ProgramStatement} (h : s ∈ ss) :
    s.outputIds ⊆ ProgramStatement.allOutputIds ss := by
  induction ss with
  | nil => cases h
  | cons first rest ih =>
      rcases List.mem_cons.mp h with rfl | h
      · exact List.subset_append_left _ _
      · exact List.Subset.trans (ih h) (List.subset_append_right _ _)

/-- An execution publishes declared outputs only. -/
theorem outputs_declared {environment : Environment} {program : SemanticProgram}
    {cutoffIndex : Option Int} {revisionId : Option String} {ck : Checkpoint}
    {result : ProgramExecutionResult}
    (h : executeIn environment program cutoffIndex revisionId ck = .ok result) :
    result.selectionOutputs.keys ⊆ ProgramStatement.allOutputIds program.statements ∧
      result.selectionScores.keys ⊆ ProgramStatement.allOutputIds program.statements := by
  obtain ⟨-, cutoff, inRange, -, -, trace, final, observations, hTrace, rfl⟩ := executeIn_ok h
  have hInvariant := hTrace.invariant
    (fun r agenda => (r.selections.keys ⊆ ProgramStatement.allOutputIds program.statements ∧
        r.selectionScores.keys ⊆ ProgramStatement.allOutputIds program.statements) ∧
      ∀ s ∈ agenda, s.outputIds ⊆ ProgramStatement.allOutputIds program.statements) ?_ ?_
  · exact hInvariant.1
  · rintro r s r' body rest hEnter ⟨hKeys, hAgenda⟩
    have hOwn := hAgenda s List.mem_cons_self
    refine ⟨(effect_of_enter hEnter).outputs_declared hKeys hOwn, fun y hy => ?_⟩
    rcases List.mem_append.mp hy with hy | hy
    · rcases body_of_enter hEnter with rfl | hBody
      · cases hy
      · exact List.Subset.trans (outputIds_of_mem hy) (List.Subset.trans
          (outputIds_of_body hBody) hOwn)
    · exact hAgenda y (List.mem_cons_of_mem s hy)
  · exact ⟨⟨by simp [Checkpoint.runtime], by simp [Checkpoint.runtime]⟩,
      fun s hs => outputIds_of_mem hs⟩

end Declared

section Main

/-- Entries with one key renamed. -/
def renameKey {α : Type} (old new : String) (entries : List (String × α)) : List (String × α) :=
  entries.map (fun entry => (if entry.1 = old then new else entry.1, entry.2))

/-- The same result, with one key of its Selection maps renamed. -/
structure ProgramExecutionResult.RenamedTo (old new : String)
    (result result' : ProgramExecutionResult) : Prop where
  others : result' = { result with
    selectionOutputs := result'.selectionOutputs
    selectionScores := result'.selectionScores }
  outputs : result'.selectionOutputs.entries = renameKey old new result.selectionOutputs.entries
  scores : result'.selectionScores.entries = renameKey old new result.selectionScores.entries

/-- Two executions fail alike, or return the same up to one output name. -/
def SameUpToOutput (old new : String) :
    Except ProgramError ProgramExecutionResult → Except ProgramError ProgramExecutionResult → Prop
  | .error e, .error e' => e' = e
  | .ok result, .ok result' => result.RenamedTo old new result'
  | _, _ => False

theorem entries_exchanged {α : Type} {old new : String} {d : Dict String α}
    (h : new ∈ d.keys → new = old) :
    (d.mapKeys (exchange old new)).entries = renameKey old new d.entries := by
  apply List.map_congr_left
  intro entry hEntry
  rw [Prod.mk.injEq]
  refine ⟨(exchange_of_ne ?_).symm, rfl⟩
  by_cases hKey : entry.1 = new
  · exact .inr (h (hKey ▸ List.mem_map_of_mem hEntry))
  · exact .inl hKey

/-- An accepted Program runs the same after one of its Subgroups is renamed. -/
theorem subgroup_renaming_alpha (strategyHash : StrategyDraft → String)
    {request : ApplyV2AuthoringRequest} {response : ApplyV2AuthoringResponse}
    {semanticId outputId : String} {program : SemanticProgram}
    (hOperation : request.operation = .renameProgramSubgroup semanticId outputId)
    (hApplied : applyV2Authoring strategyHash request = .ok response)
    (hProgram : request.strategy.program = some program) (hAccepted : Accepted program) :
    ∃ renamed, response.strategy.program = some renamed ∧
      ∃ selected ∈ selectionsOf (allProgramStatements program.statements),
        selected.semanticId = semanticId ∧
        ∀ (ctx : DecimalContext) (snapshot : DailyMarketSnapshot) (cutoffIndex : Option Int)
          (revisionId : Option String) (ck : Checkpoint),
          SameUpToOutput selected.outputId outputId
            (executeProgramV2 ctx program snapshot cutoffIndex revisionId ck)
            (executeProgramV2 ctx renamed snapshot cutoffIndex revisionId ck) := by
  obtain ⟨hResult, hValidated⟩ := applyV2Authoring_ok hApplied
  simp only [applyProgramOperation, hProgram, hOperation] at hResult
  obtain ⟨renamed, hRename, hResult⟩ := except_bind_ok.mp hResult
  have hAfter : response.strategy.program = some renamed := by
    rw [← Except.ok.inj hResult]
  have hRenamed := StrategyDraft.accepted_of_validate hAfter hValidated
  obtain ⟨selected, hSelected, hId, hNew, rfl⟩ := renamed_eq_relabel hRename hAccepted hRenamed
  refine ⟨_, hAfter, selected, hSelected, hId, ?_⟩
  intro ctx snapshot cutoffIndex revisionId ck
  have hRun := executeIn_relabel (exchange selected.outputId outputId) program
    (snapshot.environment ctx) cutoffIndex revisionId ck hAccepted hRenamed
  unfold executeProgramV2
  rw [hRun]
  cases hCase : executeIn (snapshot.environment ctx) program cutoffIndex revisionId ck with
  | error e => rfl
  | ok result =>
      obtain ⟨hOutputs, hScores⟩ := outputs_declared hCase
      exact ⟨rfl, entries_exchanged (fun hMem => hNew (hOutputs hMem)),
        entries_exchanged (fun hMem => hNew (hScores hMem))⟩

/-- A Selection and an equal allocation to an output. -/
def pickInto (outputId target : String) : StrategyDraft where
  name := "strategy"
  definitions := ⟨[⟨"universe-assets", ["A"], List.nodup_singleton _⟩],
    [⟨"universe", "Universe", "universe-assets"⟩], ⟨"universe", "member_identity"⟩⟩
  operatorLock := Dict.ofList [("compare", "1")]
  program := some (.daily [
    .select {
      semanticId := "pick"
      selection := .anyOf 1 .chooseAll one_in_countRange
      outputId := outputId
      clockId := some "daily" },
    .allocate (.sole "hold" (.selection target))])

theorem subgroup_renaming_alpha_pick :
    ∃ (response : ApplyV2AuthoringResponse) (program renamed : SemanticProgram),
      applyV2Authoring StrategyDraft.name
        ⟨pickInto "top" "top", "strategy", .renameProgramSubgroup "pick" "best"⟩ = .ok response ∧
      (pickInto "top" "top").program = some program ∧
      response.strategy.program = some renamed ∧
      ∃ selected ∈ selectionsOf (allProgramStatements program.statements),
        selected.semanticId = "pick" ∧
        ∀ (ctx : DecimalContext) (snapshot : DailyMarketSnapshot) (cutoffIndex : Option Int)
          (revisionId : Option String) (ck : Checkpoint),
          SameUpToOutput selected.outputId "best"
            (executeProgramV2 ctx program snapshot cutoffIndex revisionId ck)
            (executeProgramV2 ctx renamed snapshot cutoffIndex revisionId ck) := by
  have hChecked : (applyV2Authoring StrategyDraft.name
      ⟨pickInto "top" "top", "strategy", .renameProgramSubgroup "pick" "best"⟩).toOption.any
        (fun _ => true) = true := by decide +kernel
  obtain ⟨response, hApplied, -⟩ := exists_ok_of_any hChecked
  have hProgram : ∃ program, (pickInto "top" "top").program = some program ∧ Accepted program :=
    ⟨_, rfl, by decide +kernel⟩
  obtain ⟨program, hProgram, hAccepted⟩ := hProgram
  obtain ⟨renamed, hAfter, hAlike⟩ :=
    subgroup_renaming_alpha StrategyDraft.name rfl hApplied hProgram hAccepted
  exact ⟨response, program, renamed, hApplied, hProgram, hAfter, hAlike⟩

/-- A rename can repair a Program: its allocation waited for the new name, so
the Program was refused before the rename and runs after it. -/
theorem subgroup_renaming_repairs :
    ¬ ∀ (strategyHash : StrategyDraft → String) (request : ApplyV2AuthoringRequest)
        (response : ApplyV2AuthoringResponse) (semanticId outputId : String)
        (program renamed : SemanticProgram) (selected : SelectionStatement)
        (ctx : DecimalContext) (snapshot : DailyMarketSnapshot) (cutoffIndex : Option Int)
        (revisionId : Option String) (ck : Checkpoint),
      request.operation = .renameProgramSubgroup semanticId outputId →
      applyV2Authoring strategyHash request = .ok response →
      request.strategy.program = some program → response.strategy.program = some renamed →
      selected ∈ selectionsOf (allProgramStatements program.statements) →
      selected.semanticId = semanticId →
      SameUpToOutput selected.outputId outputId
        (executeProgramV2 ctx program snapshot cutoffIndex revisionId ck)
        (executeProgramV2 ctx renamed snapshot cutoffIndex revisionId ck) := by
  intro hClaim
  have hChecked : (applyV2Authoring StrategyDraft.name
      ⟨pickInto "first" "top", "strategy", .renameProgramSubgroup "pick" "top"⟩).toOption.any
        (fun response => response.strategy.program.any (fun renamed =>
          (executeProgramV2 (.exact id) renamed loneMember).toOption.isSome)) = true := by
    decide +kernel
  obtain ⟨response, hApplied, hRuns⟩ := exists_ok_of_any hChecked
  obtain ⟨renamed, hRenamed, hRuns⟩ := (Option.any_eq_true _ _).mp hRuns
  have hRefused : ((pickInto "first" "top").program.any (fun program =>
      (executeProgramV2 (.exact id) program loneMember).toOption.isNone)) = true := by
    decide +kernel
  obtain ⟨program, hProgram, hRefused⟩ := (Option.any_eq_true _ _).mp hRefused
  have hSelected : ∃ selected ∈ selectionsOf (allProgramStatements program.statements),
      selected.semanticId = "pick" := by
    cases hProgram
    exact ⟨_, List.mem_cons_self, rfl⟩
  obtain ⟨selected, hMem, hId⟩ := hSelected
  have hSame := hClaim StrategyDraft.name _ response "pick" "top" program renamed selected
    (.exact id) loneMember none none {} rfl hApplied hProgram hRenamed hMem hId
  cases hBefore : executeProgramV2 (.exact id) program loneMember with
  | ok result =>
      rw [hBefore] at hRefused
      cases hRefused
  | error e =>
      cases hNow : executeProgramV2 (.exact id) renamed loneMember with
      | error e' =>
          rw [hNow] at hRuns
          cases hRuns
      | ok result =>
          rw [hBefore, hNow] at hSame
          exact hSame

end Main

end RuleTrade
