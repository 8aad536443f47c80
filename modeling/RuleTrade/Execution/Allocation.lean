import RuleTrade.Execution.Runtime

/-! Selections and allocations of one decision: which members a Selection
keeps, which targets an allocation resolves, and how weights are normalized
between floors and caps. -/

namespace RuleTrade

open Library

/-- Append one evidence line. -/
def Runtime.note (r : Runtime) (semanticId kind outcome : String) (detail : EvidenceDetail) :
    Runtime :=
  { r with evidence := r.evidence ++ [⟨semanticId, kind, outcome, detail⟩] }

section Normalize

variable (ctx : DecimalContext)

/-- Loop state: current weights, weights pinned at a bound, and free assets. -/
structure Normalization where
  weights : Dict String ℚ
  fixed : Dict String ℚ
  free : List String

/-- Spread what the pinned weights leave over the free assets, by raw weight. -/
def Normalization.spread (raw : Dict String ℚ) (n : Normalization) : Normalization :=
  let remaining := ctx.sub 1 (ctx.sum n.fixed.values)
  let freeTotal := ctx.sum (n.free.map (fun asset => raw.getD asset 0))
  if n.free ≠ [] ∧ 0 < freeTotal then
    { n with weights := n.free.foldl (fun weights asset =>
        weights.set asset (ctx.quot (ctx.mul remaining (raw.getD asset 0)) freeTotal)) n.weights }
  else n

/-- Pin an asset whose weight is out of bounds. -/
def Normalization.pin (floor cap : ℚ) (n : Normalization) (asset : String) : Normalization :=
  let weight := n.weights.getD asset 0
  if weight < floor then
    { n with fixed := n.fixed.set asset floor, free := n.free.erase asset }
  else if cap < weight then
    { n with fixed := n.fixed.set asset cap, free := n.free.erase asset }
  else n

/-- One round: spread, then pin every free asset in order of symbol. -/
def Normalization.round (raw : Dict String ℚ) (floor cap : ℚ) (n : Normalization) : Normalization :=
  let spread := n.spread ctx raw
  (Sequence.sortBy id spread.free).foldl (Normalization.pin floor cap) spread

/-- At most `rounds` rounds, stopping at the first that pins nothing. -/
def Normalization.settle (raw : Dict String ℚ) (floor cap : ℚ) : Nat → Normalization → Normalization
  | 0, n => n
  | rounds + 1, n =>
      let next := n.round ctx raw floor cap
      if next.free.length = n.free.length then next else settle raw floor cap rounds next

/-- Asset of the largest raw weight, the first symbol among equals. -/
def remainderAnchor (raw : Dict String ℚ) : Option String :=
  (Sequence.sortByDescending (fun asset => raw.getD asset 0)
    (Sequence.sortBy id raw.keys)).head?

def remainderTolerance : ℚ := 1 / 10 ^ 24

/-- Close a remainder: a tiny one at the anchor, a missing one in cash. -/
def closeRemainder (raw weights : Dict String ℚ) (cashAsset : Option String) :
    Except ProgramError (Dict String ℚ) :=
  let assigned := ctx.sum weights.values
  let remainder := ctx.sub 1 assigned
  if ctx.abs remainder ≤ remainderTolerance then
    match remainderAnchor raw with
    | none => .ok weights
    | some anchor => .ok (weights.set anchor (ctx.add (weights.getD anchor 0) remainder))
  else if 1 < assigned then .error .allocationBoundsConflict
  else if assigned < 1 then
    match cashAsset with
    | none => .error .allocationRemainderWithoutCash
    | some cash => .ok (weights.set cash (ctx.add (weights.getD cash 0) (ctx.sub 1 assigned)))
  else .ok weights

/-- A zero bound counts as an absent one. -/
def boundOr (bound : Option ℚ) (fallback : ℚ) : ℚ :=
  match bound with
  | none => fallback
  | some b => if b = 0 then fallback else b

def boundedNormalize (raw : Dict String ℚ) (minimum maximum : Option ℚ)
    (cashAsset : Option String) : Except ProgramError (Dict String ℚ) :=
  let total := ctx.sum raw.values
  let floor := boundOr minimum 0
  let cap := boundOr maximum 1
  if raw.isEmpty ∨ total ≤ 0 then .error .allocationScoresNotPositive
  else if 1 < ctx.mul floor raw.values.length then .error .allocationFloorConflict
  else if ctx.mul cap raw.values.length < 1 ∧ cashAsset.isNone then
    .error .allocationCapRequiresCashRemainder
  else
    let start : Normalization :=
      ⟨raw.mapValues (fun value => ctx.quot value total), Dict.empty, raw.keys⟩
    let settled := start.settle ctx raw floor cap (raw.values.length + 1)
    closeRemainder ctx raw (settled.weights.update settled.fixed) cashAsset

end Normalize

section Selection

variable (d : Decision)

/-- One member's score, when the member is eligible and has one. -/
def rankMember (r : Runtime) (selection : Selection) (members : List String) (member : String) :
    Evaluation (Option (ℚ × String)) := do
  let outcome ← match selection.eligibility with
    | none => pure Truth.true
    | some eligibility =>
        condition d r (some selection.binding.id) members eligibility (some member)
  if outcome ≠ .true then pure none
  else do
    let score ← value d r (some selection.binding.id) members selection.ranking (some member)
    pure (score.value.map (·, member))

/-- Members chosen from the ranked ones, with the outcome reported. -/
def chooseMembers (selection : Selection) (ordered : List String) : List String × String :=
  if ordered ≠ [] ∧ (selection.count ≤ ordered.length ∨ selection.shortagePolicy = .chooseAll) then
    (ordered.take selection.count, "selected")
  else
    match selection.fallbackAsset with
    | some asset => ([asset], "selection_fallback")
    | none => ([], "incomplete")

/-- Run a Selection and publish its members and their scores. -/
def selection (r : Runtime) (s : SelectionStatement) : Evaluation Runtime := do
  if ← Logged.lift (d.due s.clockId) then
    let members ← Logged.lift (d.members s.selection.universeId)
    let scored ← Logged.forEach (rankMember d r s.selection members) members
    let eligible := scored.filterMap id
    let ranked := rankMembers s.selection.direction eligible
    let chosen := chooseMembers s.selection (ranked.map Prod.snd)
    let scores := Dict.ofList ((ranked.filter (fun entry => entry.2 ∈ chosen.1)).map
      (fun entry => (entry.2, entry.1)))
    pure ({ r with
      selections := r.selections.set s.outputId chosen.1
      selectionScores := r.selectionScores.set s.outputId scores }.note
        s.semanticId "selection" chosen.2 (.selection (eligible.map Prod.snd) chosen.1))
  else pure (r.note s.semanticId "selection" "not_due" (.text (s.clockId.getD "")))

end Selection

section Allocation

variable (d : Decision) (r : Runtime)

/-- Output a score-derived allocation takes its members and scores from. -/
def AllocationStatement.scoreOutput (s : AllocationStatement) : String :=
  match s.legs.head? with
  | none => ""
  | some leg => leg.target.kind.ref.getD ""

/-- The members and scores published under an output. -/
def Runtime.selected (r : Runtime) (outputId : String) : List String :=
  r.selections.getD outputId []

def Runtime.scores (r : Runtime) (outputId : String) : Dict String ℚ :=
  r.selectionScores.getD outputId Dict.empty

def allocationResolvable (s : AllocationStatement) : Bool :=
  let targetsExist := s.legs.all (fun leg =>
    match leg.target.kind with
    | .selection ref => !(r.selected ref).isEmpty
    | _ => true)
  if !targetsExist then false
  else match s.method with
    | .equal | .fixed => true
    | method =>
        let scores := r.scores s.scoreOutput
        if scores.isEmpty then !(r.selected s.scoreOutput).isEmpty
        else if method = .inverseVolatility then scores.values.all (fun score => 0 < score)
        else scores.values.any (fun score => 0 < score)

/-- Assets a target stands for. A retain target stands for none. -/
def targetAssets (kind : AllocationTargetKind) : Except ProgramError (List String) :=
  match kind with
  | .selection ref => .ok (r.selected ref)
  | .group ref => d.members ref
  | .asset ref => .ok [ref]
  | .cash => .ok ["CASH"]
  | .retain => .ok []

/-- Assets of the legs with their share of the leg's weight. Legs without
assets are skipped, and a retain leg ends the expansion. -/
def expandLegs : List AllocationLeg → Except ProgramError (Option (List (String × Option ℚ)))
  | [] => .ok (some [])
  | leg :: rest =>
      if leg.target.kind = .retain then .ok none
      else do
        let assets ← targetAssets d r leg.target.kind
        let later ← expandLegs rest
        if assets = [] then .ok later
        else
          let share := leg.weight.map (fun w => d.environment.context.quot w assets.length)
          .ok (later.map (fun expanded => assets.map (·, share) ++ expanded))

/-- Add weights up asset by asset. -/
def addWeights (ctx : DecimalContext) (entries : List (String × ℚ)) : Dict String ℚ :=
  entries.foldl (fun weights entry =>
    weights.set entry.1 (ctx.add (weights.getD entry.1 0) entry.2)) Dict.empty

/-- Raw weights by score. A Selection fallback carries no score and is kept
with equal weights. -/
def proportionalRaw (selected : List String) (scores : Dict String ℚ) : Dict String ℚ :=
  if selected ≠ [] ∧ selected.all (fun asset => !scores.contains asset) then
    Dict.ofList (selected.map (·, 1))
  else Dict.ofList (selected.map (fun asset => (asset, max 0 (scores.getD asset 0))))

def inverseRaw (ctx : DecimalContext) (selected : List String) (scores : Dict String ℚ) :
    Except ProgramError (Dict String ℚ) :=
  if selected.any (fun asset => scores.getD asset 0 ≤ 0) then
    .error .inverseVolatilityRequiresPositiveValues
  else .ok (Dict.ofList (selected.map (fun asset => (asset, ctx.quot 1 (scores.getD asset 0)))))

/-- Target weights of the expanded legs under the statement's method. -/
def methodWeights (s : AllocationStatement) (expanded : List (String × Option ℚ)) :
    Except ProgramError (Dict String ℚ) :=
  let ctx := d.environment.context
  let selected := r.selected s.scoreOutput
  let scores := r.scores s.scoreOutput
  match s.method with
  | .equal =>
      .ok (addWeights ctx (expanded.map (fun entry => (entry.1, ctx.quot 1 expanded.length))))
  | .fixed => .ok (addWeights ctx (expanded.map (fun entry => (entry.1, entry.2.getD 0))))
  | .proportionalScore =>
      boundedNormalize ctx (proportionalRaw selected scores) s.minimumWeight s.maximumWeight
        s.cashRemainderAsset
  | .inverseVolatility => do
      let raw ← inverseRaw ctx selected scores
      boundedNormalize ctx raw s.minimumWeight s.maximumWeight s.cashRemainderAsset

/-- Run an allocation. It writes weights, asks to retain, or is not due. -/
def allocation (s : AllocationStatement) (outcome : String) : Except ProgramError Runtime := do
  if ← d.due s.clockId then
    match ← expandLegs d r s.legs with
    | none =>
        .ok ({ r with retained := true }.note s.semanticId "allocation" "retain"
          (.text "retain current holdings"))
    | some [] =>
        .ok ({ r with retained := true }.note s.semanticId "allocation" "unresolved_retain"
          (.text "no resolved targets; retain current holdings"))
    | some expanded => do
        let weights ← methodWeights d r s expanded
        .ok ({ r with targetWeights := weights, retained := false }.note
          s.semanticId "allocation" outcome (.weights weights))
  else .ok (r.note s.semanticId "allocation" "not_due" (.text (s.clockId.getD "")))

end Allocation

end RuleTrade
