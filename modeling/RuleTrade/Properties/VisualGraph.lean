import RuleTrade.Editor.VisualGraph

/-! Which graphs compile to an operation that holds all that hangs under their Start. -/

namespace RuleTrade

open Library

namespace ProgramWorkingDraft

variable {draft : ProgramWorkingDraft} {numberOf : String → Option ℚ}
  {numberText : Option ℚ → String}

section Graphs

/-- Blocks that hang under a block, by any number of connections. -/
def Connected (draft : ProgramWorkingDraft) : String → String → Prop :=
  Relation.ReflTransGen (fun parent child => child ∈ draft.children parent)

/-- The blocks in a slot. -/
def slotChildren (draft : ProgramWorkingDraft) (parentId inputName : String) : List String :=
  ((draft.connectionsOf parentId).filter (fun connection =>
    connection.inputName = some inputName)).map ProgramDraftConnection.childId

/-- What is read of the block in the target slot, and of the one in the weight slot. -/
def targetReading (numberText : Option ℚ → String) (draft : ProgramWorkingDraft) (id : String) :
    Option (String × String) :=
  (draft.childAt id "TARGET").map (fun block => (block.definitionId, block.asset numberText))

def weightReading (numberOf : String → Option ℚ) (draft : ProgramWorkingDraft) (id : String) :
    Option (String × Option ℚ) :=
  (draft.childAt id "WEIGHT").map (fun block => (block.definitionId, block.percent numberOf))

/-- Four blocks are all that hangs under the Start: a Start, a rebalance, an asset and 100%,
each alone in its slot, and an operation holds that asset on the timeframe of the Start. -/
structure Holds (numberOf : String → Option ℚ) (numberText : Option ℚ → String)
    (draft : ProgramWorkingDraft) (operation : IntentOperation)
    (start action target weight : String) : Prop where
  root : draft.rootIds = [start]
  connected : ∀ id, draft.Connected start id ↔ id ∈ [start, action, target, weight]
  next : draft.slotChildren start "NEXT" = [action]
  targetSlot : draft.slotChildren action "TARGET" = [target]
  weightSlot : draft.slotChildren action "WEIGHT" = [weight]
  rebalance : ∃ block, draft.canvasBlocks.get? action = some block ∧
    block.definitionId = "rebalance"
  percentage : ∃ block, draft.canvasBlocks.get? weight = some block ∧
    block.definitionId = "percentage" ∧ block.percent numberOf = some 100
  asset : ∃ startBlock assetBlock timeframe, draft.canvasBlocks.get? start = some startBlock ∧
    draft.canvasBlocks.get? target = some assetBlock ∧
    assetBlock.definitionId = "asset-reference" ∧ startBlock.timeframe? = some timeframe ∧
    ∃ investmentId name assetSetId, operation = .commitSingleAsset investmentId name assetSetId
      (some (assetBlock.asset numberText)) (some timeframe) .rebalance

/-- No connection leads from the four blocks that the compiler follows to another block, none
of their slots holds a second one, and the rebalance reads alike under its own id. -/
structure OnlyFollowed (numberOf : String → Option ℚ) (numberText : Option ℚ → String)
    (draft : ProgramWorkingDraft) (start action target weight : String) : Prop where
  root : draft.rootIds = [start]
  next : draft.slotChildren start "NEXT" = [action]
  targetSlot : draft.slotChildren action "TARGET" = [target]
  weightSlot : draft.slotChildren action "WEIGHT" = [weight]
  closed : ∀ parent ∈ [start, action, target, weight], ∀ child ∈ draft.children parent,
    child ∈ [start, action, target, weight]
  filed : ∀ block, draft.canvasBlocks.get? action = some block →
    draft.targetReading numberText action = draft.targetReading numberText block.id ∧
      draft.weightReading numberOf action = draft.weightReading numberOf block.id

theorem mem_children_of_slotChildren {parent child name : String}
    (h : child ∈ draft.slotChildren parent name) : child ∈ draft.children parent := by
  obtain ⟨connection, hConnection, rfl⟩ := List.mem_map.mp h
  exact List.mem_map_of_mem (List.mem_of_mem_filter hConnection)

/-- The compiler finds the only block of a slot. -/
theorem childAt_of_slotChildren {parent child name : String}
    (h : draft.slotChildren parent name = [child]) :
    draft.childAt parent name = draft.canvasBlocks.get? child := by
  by_cases hNamed : parent = ""
  · simp [slotChildren, connectionsOf, hNamed] at h
  · simp only [slotChildren, connectionsOf, if_neg hNamed, List.filter_filter] at h
    obtain ⟨connection, hFilter, rfl⟩ := List.map_eq_singleton_iff.mp h
    have hFind := congrArg List.head? hFilter
    rw [List.head?_filter, List.head?_cons] at hFind
    have hSame : (fun connection : ProgramDraftConnection =>
        decide (connection.parentId = some parent) && decide (connection.inputName = some name)) =
        fun connection => decide (connection.inputName = some name) &&
          decide (connection.parentId = some parent) := by
      funext connection
      exact Bool.and_comm _ _
    rw [childAt, hSame, hFind]
    rfl

end Graphs

section Ready

variable {result : ActiveVisualGraphCompilation} {root : ProgramCanvasBlock}

theorem singleAssetRebalance_cases {asset : String} {timeframe : IntentTimeframe}
    (h : draft.singleAssetRebalance numberOf numberText root = some (asset, timeframe)) :
    ∃ action, draft.childAt root.id "NEXT" = some action ∧ action.definitionId = "rebalance" ∧
      draft.targetReading numberText action.id = some ("asset-reference", asset) ∧
      draft.weightReading numberOf action.id = some ("percentage", some 100) ∧
      root.timeframe? = some timeframe := by
  simp only [singleAssetRebalance, Option.bind_eq_bind, Option.bind_eq_some_iff,
    Option.guard_eq_some', Option.pure_def, Option.some.injEq, Prod.mk.injEq] at h
  obtain ⟨action, hAction, target, hTarget, weight, hWeight, tf, hTimeframe, -, hRebalance, -,
    hReference, -, hPercentage, -, hPercent, -, -, rfl, rfl⟩ := h
  refine ⟨action, hAction, hRebalance, ?_, ?_, hTimeframe⟩
  · simp [targetReading, hTarget, hReference]
  · simp [weightReading, hWeight, hPercentage, hPercent]

theorem compileGraph_cases {graph : ValidatedVisualGraph}
    (h : draft.compileGraph numberOf numberText graph = some result)
    (hReady : result.status = .ready) :
    ∃ root asset timeframe investmentId name assetSetId,
      draft.canvasBlocks.get? graph.rootId = some root ∧
      draft.singleAssetRebalance numberOf numberText root = some (asset, timeframe) ∧
      result.operation = some (.commitSingleAsset investmentId name assetSetId (some asset)
        (some timeframe) .rebalance) := by
  unfold compileGraph at h
  split_ifs at h
  · cases h
    cases hReady
  · cases h
    cases hReady
  · obtain ⟨root, hRoot, rfl⟩ := Option.map_eq_some_iff.mp h
    cases hRebalance : draft.singleAssetRebalance numberOf numberText root with
    | none =>
        rw [hRebalance] at hReady
        cases hReady
    | some held =>
        obtain ⟨asset, timeframe⟩ := held
        exact ⟨root, asset, timeframe, _, _, _, hRoot, hRebalance, rfl⟩

/-- A graph that is ready has one Start, and its operation is a rebalance of one asset. -/
theorem ready_cases (h : draft.compileActiveVisualGraph numberOf numberText = some result)
    (hReady : result.status = .ready) :
    ∃ start root asset timeframe investmentId name assetSetId, draft.rootIds = [start] ∧
      draft.canvasBlocks.get? start = some root ∧
      draft.singleAssetRebalance numberOf numberText root = some (asset, timeframe) ∧
      result.operation = some (.commitSingleAsset investmentId name assetSetId (some asset)
        (some timeframe) .rebalance) := by
  rw [compileActiveVisualGraph, Option.bind_eq_bind, Option.bind_eq_some_iff] at h
  obtain ⟨⟨graphs, diagnostics⟩, hValidation, h⟩ := h
  have hGraphs : graphs = draft.rootIds.map draft.validatedGraph := by
    simp only [validateActiveVisualGraphs, Option.bind_eq_bind, Option.bind_eq_some_iff,
      Option.pure_def, Option.some.injEq, VisualGraphValidation.mk.injEq] at hValidation
    obtain ⟨duplicates, -, hGraphs, -⟩ := hValidation
    exact hGraphs.symm
  cases diagnostics with
  | cons first rest =>
      cases h
      cases hReady
  | nil =>
      cases hRoots : draft.rootIds with
      | nil =>
          rw [hRoots, List.map_nil] at hGraphs
          subst hGraphs
          cases h
          cases hReady
      | cons start others =>
          rw [hRoots, List.map_cons] at hGraphs
          subst hGraphs
          cases others with
          | cons second rest =>
              cases h
              cases hReady
          | nil =>
              obtain ⟨root, asset, timeframe, investmentId, name, assetSetId, hCases⟩ :=
                compileGraph_cases h hReady
              exact ⟨start, root, asset, timeframe, investmentId, name, assetSetId, rfl, hCases⟩

theorem timeframe?_isHat {block : ProgramCanvasBlock} {timeframe : IntentTimeframe}
    (h : block.timeframe? = some timeframe) :
    (entryBlockDefinition block.definitionId).any (fun definition =>
      definition.shape = .hat) := by
  unfold ProgramCanvasBlock.timeframe? at h
  split_ifs at h with hDaily hMonthly
  · rw [hDaily]
    decide
  · rw [hMonthly]
    decide

/-- The only Start is filed under its own id. -/
theorem id_of_rootIds {start : String} {timeframe : IntentTimeframe}
    (hRoots : draft.rootIds = [start]) (hRoot : draft.canvasBlocks.get? start = some root)
    (hTimeframe : root.timeframe? = some timeframe) : root.id = start := by
  have hMem : root ∈ draft.canvasBlocks.values :=
    List.mem_map.mpr ⟨(start, root), Dict.mem_of_get? hRoot, rfl⟩
  have hId : root.id ∈ draft.rootIds :=
    List.mem_map.mpr ⟨root, List.mem_filter.mpr ⟨hMem, timeframe?_isHat hTimeframe⟩, rfl⟩
  rw [hRoots] at hId
  exact List.mem_singleton.mp hId

end Ready

section Exactness

variable {result : ActiveVisualGraphCompilation} {operation : IntentOperation}
  {start action target weight : String}

theorem Connected.mem_of_closed {ids : List String} {id : String}
    (hClosed : ∀ parent ∈ ids, ∀ child ∈ draft.children parent, child ∈ ids)
    (hStart : start ∈ ids) (h : draft.Connected start id) : id ∈ ids := by
  induction h with
  | refl => exact hStart
  | tail _ hChild ih => exact hClosed _ ih _ hChild

/-- What hangs under the Start is what the compiler follows when nothing leads further. -/
theorem OnlyFollowed.connected_iff
    (h : OnlyFollowed numberOf numberText draft start action target weight) (id : String) :
    draft.Connected start id ↔ id ∈ [start, action, target, weight] := by
  refine ⟨fun hId => hId.mem_of_closed h.closed List.mem_cons_self, ?_⟩
  have hAction : draft.Connected start action := .single (mem_children_of_slotChildren
    (h.next ▸ List.mem_singleton_self action))
  have hTarget : target ∈ draft.children action :=
    mem_children_of_slotChildren (h.targetSlot ▸ List.mem_singleton_self target)
  have hWeight : weight ∈ draft.children action :=
    mem_children_of_slotChildren (h.weightSlot ▸ List.mem_singleton_self weight)
  simp only [List.mem_cons, List.not_mem_nil, or_false]
  rintro (rfl | rfl | rfl | rfl)
  · exact .refl
  · exact hAction
  · exact hAction.tail hTarget
  · exact hAction.tail hWeight

theorem holds_of_onlyFollowed
    (h : draft.compileActiveVisualGraph numberOf numberText = some result)
    (hReady : result.status = .ready) (hOperation : result.operation = some operation)
    (hOnly : OnlyFollowed numberOf numberText draft start action target weight) :
    Holds numberOf numberText draft operation start action target weight := by
  obtain ⟨root, block, asset, timeframe, investmentId, name, assetSetId, hRoots, hBlock,
    hRebalance, hHeld⟩ := ready_cases h hReady
  obtain rfl := List.singleton_inj.mp (hOnly.root.symm.trans hRoots)
  obtain ⟨found, hFound, hDefinition, hTarget, hWeight, hTimeframe⟩ :=
    singleAssetRebalance_cases hRebalance
  rw [id_of_rootIds hRoots hBlock hTimeframe, childAt_of_slotChildren hOnly.next] at hFound
  obtain ⟨hTargetSame, hWeightSame⟩ := hOnly.filed found hFound
  rw [← hTargetSame, targetReading, childAt_of_slotChildren hOnly.targetSlot] at hTarget
  rw [← hWeightSame, weightReading, childAt_of_slotChildren hOnly.weightSlot] at hWeight
  obtain ⟨assetBlock, hAssetBlock, hAsset⟩ := Option.map_eq_some_iff.mp hTarget
  obtain ⟨weightBlock, hWeightBlock, hPercent⟩ := Option.map_eq_some_iff.mp hWeight
  rw [Prod.mk.injEq] at hAsset hPercent
  refine ⟨hRoots, hOnly.connected_iff, hOnly.next, hOnly.targetSlot, hOnly.weightSlot,
    ⟨found, hFound, hDefinition⟩, ⟨weightBlock, hWeightBlock, hPercent⟩,
    ⟨block, assetBlock, timeframe, hBlock, hAssetBlock, hAsset.1, hTimeframe, investmentId, name,
      assetSetId, ?_⟩⟩
  rw [hAsset.2]
  exact Option.some.inj (hOperation.symm.trans hHeld)

theorem onlyFollowed_of_holds
    (h : draft.compileActiveVisualGraph numberOf numberText = some result)
    (hReady : result.status = .ready) (hOperation : result.operation = some operation)
    (hHolds : Holds numberOf numberText draft operation start action target weight) :
    OnlyFollowed numberOf numberText draft start action target weight := by
  obtain ⟨root, block, asset, timeframe, investmentId, name, assetSetId, hRoots, hBlock,
    hRebalance, hHeld⟩ := ready_cases h hReady
  obtain rfl := List.singleton_inj.mp (hHolds.root.symm.trans hRoots)
  obtain ⟨found, hFound, hDefinition, hTarget, hWeight, hTimeframe⟩ :=
    singleAssetRebalance_cases hRebalance
  rw [id_of_rootIds hRoots hBlock hTimeframe, childAt_of_slotChildren hHolds.next] at hFound
  refine ⟨hRoots, hHolds.next, hHolds.targetSlot, hHolds.weightSlot, ?_, ?_⟩
  · intro parent hParent child hChild
    exact (hHolds.connected child).mp (((hHolds.connected parent).mpr hParent).tail hChild)
  · intro same hSame
    obtain rfl := Option.some.inj (hFound.symm.trans hSame)
    obtain ⟨startBlock, assetBlock, heldTimeframe, -, hAssetBlock, hReference, -, heldId, heldName,
      heldSetId, hSameOperation⟩ := hHolds.asset
    obtain ⟨weightBlock, hWeightBlock, hPercentage, hPercent⟩ := hHolds.percentage
    have hAsset : assetBlock.asset numberText = asset := by
      have hBoth := hSameOperation.symm.trans (Option.some.inj (hOperation.symm.trans hHeld))
      simp only [IntentOperation.commitSingleAsset.injEq, Option.some.injEq] at hBoth
      exact hBoth.2.2.2.1
    rw [hTarget, hWeight, targetReading, weightReading, childAt_of_slotChildren hHolds.targetSlot,
      childAt_of_slotChildren hHolds.weightSlot, hAssetBlock, hWeightBlock]
    simp [hReference, hPercentage, hPercent, hAsset]

/-- A ready operation holds all that hangs under its Start exactly when no connection leads
from the blocks that the compiler follows to any other block or twice into one slot. -/
theorem ready_holds_iff (h : draft.compileActiveVisualGraph numberOf numberText = some result)
    (hReady : result.status = .ready) :
    (∃ operation start action target weight, result.operation = some operation ∧
      Holds numberOf numberText draft operation start action target weight) ↔
      ∃ start action target weight,
        OnlyFollowed numberOf numberText draft start action target weight := by
  constructor
  · rintro ⟨operation, start, action, target, weight, hOperation, hHolds⟩
    exact ⟨start, action, target, weight, onlyFollowed_of_holds h hReady hOperation hHolds⟩
  · rintro ⟨start, action, target, weight, hOnly⟩
    obtain ⟨-, -, asset, timeframe, investmentId, name, assetSetId, -, -, -, hHeld⟩ :=
      ready_cases h hReady
    exact ⟨_, start, action, target, weight, hHeld, holds_of_onlyFollowed h hReady hHeld hOnly⟩

section Stack

/-- A rebalance to all of one asset, under a daily Start. -/
def rebalanceBlocks : List (String × ProgramCanvasBlock) :=
  [("start", { id := "start", definitionId := "start-daily" }),
    ("first", { id := "first", definitionId := "rebalance" }),
    ("growth", { id := "growth", definitionId := "asset-reference", objectRef := some "QQQ" }),
    ("all", { id := "all", definitionId := "percentage"
              fieldValues := Dict.ofList [("VALUE", .number (some 100))] })]

def rebalanceConnections : List (String × ProgramDraftConnection) :=
  [("first", ⟨"first", some "start", some "NEXT"⟩),
    ("growth", ⟨"growth", some "first", some "TARGET"⟩),
    ("all", ⟨"all", some "first", some "WEIGHT"⟩)]

def rebalanceDraft : ProgramWorkingDraft :=
  ⟨Dict.ofList rebalanceBlocks, Dict.ofList rebalanceConnections⟩

def rebalanceResult : ActiveVisualGraphCompilation where
  status := .ready
  operation := some (.commitSingleAsset "investment-start" "Investment" "investment-start-assets"
    (some "QQQ") (some .daily) .rebalance)
  productMessage := "QQQ will rebalance to 100% on each daily close."
  rootId := some "start"

theorem rebalanceDraft_holds : ∃ operation start action target weight,
    rebalanceResult.operation = some operation ∧
      Holds (fun _ => none) (fun _ => "") rebalanceDraft operation start action target weight := by
  have hCompiled : rebalanceDraft.compileActiveVisualGraph (fun _ => none) (fun _ => "") =
      some rebalanceResult := by decide +kernel
  refine (ready_holds_iff hCompiled rfl).mpr ⟨"start", "first", "growth", "all", ?_⟩
  refine ⟨by decide +kernel, by decide +kernel, by decide +kernel, by decide +kernel,
    by decide +kernel, ?_⟩
  intro block hBlock
  have hId : (rebalanceDraft.canvasBlocks.get? "first").map ProgramCanvasBlock.id =
      some "first" := by decide +kernel
  rw [hBlock] at hId
  obtain hFirst := Option.some.inj hId
  rw [hFirst]
  exact ⟨rfl, rfl⟩

/-- The same with a second rebalance, to another asset, after the first. -/
def stackedDraft : ProgramWorkingDraft :=
  ⟨Dict.ofList (rebalanceBlocks ++
    [("second", { id := "second", definitionId := "rebalance" }),
      ("bonds", { id := "bonds", definitionId := "asset-reference", objectRef := some "TLT" }),
      ("rest", { id := "rest", definitionId := "percentage"
                 fieldValues := Dict.ofList [("VALUE", .number (some 100))] })]),
    Dict.ofList (rebalanceConnections ++
    [("second", ⟨"second", some "first", some "NEXT"⟩),
      ("bonds", ⟨"bonds", some "second", some "TARGET"⟩),
      ("rest", ⟨"rest", some "second", some "WEIGHT"⟩)])⟩

/-- The stack is ready, and its operation is the one of the first rebalance alone. -/
theorem stackedDraft_ready :
    stackedDraft.compileActiveVisualGraph (fun _ => none) (fun _ => "") = some rebalanceResult ∧
    stackedDraft.Connected "start" "second" ∧
    ¬ ∃ operation start action target weight, rebalanceResult.operation = some operation ∧
      Holds (fun _ => none) (fun _ => "") stackedDraft operation start action target weight := by
  have hConnected : stackedDraft.Connected "start" "second" := by
    have hFirst : "first" ∈ stackedDraft.children "start" := by decide +kernel
    have hSecond : "second" ∈ stackedDraft.children "first" := by decide +kernel
    exact .tail (.single hFirst) hSecond
  refine ⟨by decide +kernel, hConnected, ?_⟩
  rintro ⟨operation, start, action, target, weight, -, hHolds⟩
  have hRoots : stackedDraft.rootIds = ["start"] := by decide +kernel
  obtain rfl := List.singleton_inj.mp (hHolds.root.symm.trans hRoots)
  have hNext : stackedDraft.slotChildren "start" "NEXT" = ["first"] := by decide +kernel
  obtain rfl := List.singleton_inj.mp (hHolds.next.symm.trans hNext)
  have hTarget : stackedDraft.slotChildren "first" "TARGET" = ["growth"] := by decide +kernel
  obtain rfl := List.singleton_inj.mp (hHolds.targetSlot.symm.trans hTarget)
  have hWeight : stackedDraft.slotChildren "first" "WEIGHT" = ["all"] := by decide +kernel
  obtain rfl := List.singleton_inj.mp (hHolds.weightSlot.symm.trans hWeight)
  exact absurd ((hHolds.connected "second").mp hConnected) (by decide)

end Stack

end Exactness

end ProgramWorkingDraft

end RuleTrade
