import RuleTrade.Backend.StaticLowering
import RuleTrade.Execution.Runtime

/-! Selections as the generated algorithm runs them: values over its windows of
daily closes, and the three places that turn ranked tickers into holdings. -/

namespace RuleTrade

open Library

/-- Numbers in generated code: the arithmetic it runs in, what a decimal of the
plan becomes as a literal of the source text, and how a number is printed. -/
structure GeneratedNumbers where
  context : DecimalContext
  literal : ℚ → ℚ
  text : ℚ → String

/-- What the generated algorithm holds when it selects: the closes of each
tracked ticker, newest first, and the tickers a cooldown lets through. -/
structure GeneratedMarket where
  numbers : GeneratedNumbers
  dailyCloses : Dict String (List ℚ)
  cooldownAllows : String → String → Bool := fun _ _ => true

section Values

variable (market : GeneratedMarket)

def GeneratedMarket.context : DecimalContext := market.numbers.context

def GeneratedMarket.window (ticker : String) : List ℚ := market.dailyCloses.getD ticker []

def GeneratedMarket.currentPrice (ticker : String) : Option ℚ := (market.window ticker).head?

def GeneratedMarket.trailingReturn (ticker : String) (observations : Nat) : Option ℚ :=
  match (market.window ticker).head?, (market.window ticker)[observations]? with
  | some latest, some base =>
      if base = 0 then none
      else some (market.context.sub (market.context.quot latest base) 1)
  | _, _ => none

def GeneratedMarket.rollingPrice (ticker : String) (observations : Nat)
    (aggregate : LeanAggregate) : Option ℚ :=
  let window := market.window ticker
  if window.length < observations ∨ observations < 1 then none
  else
    let values := Sequence.sortBy id (window.take observations)
    let middle := observations / 2
    match aggregate with
    | .min => values.head?
    | .max => values.getLast?
    | .median =>
        some (if observations % 2 = 1 then values.getD middle 0
          else market.context.quot
            (market.context.add (values.getD (middle - 1) 0) (values.getD middle 0)) 2)
    | .mean => some (market.context.quot (market.context.sum values) observations)

/-- Totals of a weighted score over the terms that have a value. -/
def GeneratedMarket.weightedScore (policy : ScorePolicy) (terms : List (Option ℚ × ℚ)) :
    Option ℚ :=
  let ctx := market.context
  let available := terms.filterMap (fun term => term.1.map (·, term.2))
  let total := available.foldl (fun total term => ctx.add total (ctx.mul term.1 term.2)) 0
  let weight := available.foldl (fun weight term => ctx.add weight |term.2|) 0
  if terms = [] ∨ (policy.missingPolicy = .requireAll ∧ available.length < terms.length) then none
  else if weight = 0 then none
  else
    let scaled :=
      if policy.missingPolicy = .renormalizeAvailable ∨ policy.normalization = .sumAbs then
        ctx.quot total weight
      else total
    let raised := match policy.clampMin with
      | none => scaled
      | some low => max (market.numbers.literal low) scaled
    some (match policy.clampMax with
      | none => raised
      | some high => min (market.numbers.literal high) raised)

def LeanSubject.ticker (candidate : String) : LeanSubject → String
  | .candidate => candidate
  | .asset symbol => symbol.getD ""

mutual

def LeanValue.read (candidate : String) : LeanValue → Option ℚ
  | .literal _ value => some (market.numbers.literal value)
  | .currentPrice subject => market.currentPrice (subject.ticker candidate)
  | .trailingReturn subject observations =>
      market.trailingReturn (subject.ticker candidate) observations
  | .rollingPrice subject observations aggregate =>
      market.rollingPrice (subject.ticker candidate) observations aggregate
  | .scale operand factor =>
      (LeanValue.read candidate operand).map (fun value =>
        market.context.mul value (market.numbers.literal factor))
  | .weightedScore terms policy =>
      market.weightedScore policy (LeanValue.readTerms candidate terms)

def LeanValue.readTerms (candidate : String) : List LeanScoreTerm → List (Option ℚ × ℚ)
  | [] => []
  | .mk value weight :: rest =>
      (LeanValue.read candidate value, market.numbers.literal weight) ::
        LeanValue.readTerms candidate rest

end

/-- Comparison of two values; a missing side makes it fail. The generator has a
symbol for four operators, and the two others have no text. -/
def LeanComparison.holds (candidate : String) (comparison : LeanComparison) : Bool :=
  match comparison.left.read market candidate, comparison.right.read market candidate with
  | some left, some right => compareValues comparison.operator left right
  | _, _ => false

def LeanFilterClause.holds (clause : LeanFilterClause) (value : ℚ) : Bool :=
  compareValues clause.operator value (market.numbers.literal clause.threshold)

end Values

section Ranking

variable (market : GeneratedMarket) (s : LeanMomentumSelection)

/-- Value the selection ranks by. -/
def LeanMomentumSelection.ranking : LeanValue :=
  s.rankingValue.getD (.trailingReturn .candidate s.lookbackBars)

/-- Scores of the tickers that have one. -/
def LeanMomentumSelection.scores : Dict String ℚ :=
  Dict.ofList (s.symbols.filterMap (fun ticker =>
    (s.ranking.read market ticker).map (ticker, ·)))

def LeanMomentumSelection.eligibilityHolds (ticker : String) : Bool :=
  s.eligibility.all (LeanComparison.holds market ticker)

/-- Clauses of the older threshold filter. -/
def LeanMomentumSelection.filterHolds (value : ℚ) : Bool :=
  if s.filterClauses = [] then
    match s.filterOperator, s.filterThreshold with
    | some operator, some threshold => LeanFilterClause.holds market ⟨operator, threshold⟩ value
    | _, _ => true
  else s.filterClauses.all (fun clause => clause.holds market value)

/-- `OrderBy` or `OrderByDescending` on the value, then by key. -/
def LeanMomentumSelection.rank (scored : List (String × ℚ)) : List String :=
  let byKey := Sequence.sortBy Prod.fst scored
  (match s.direction with
    | .descending => Sequence.sortByDescending Prod.snd byKey
    | .ascending => Sequence.sortBy Prod.snd byKey).map Prod.fst

/-- The shortage policy is met. -/
def LeanMomentumSelection.success (chosen : List String) : Bool :=
  match s.shortagePolicy with
  | .chooseAll => 0 < chosen.length
  | .requireFull => chosen.length = s.count

/-- Filter of the rebalances and snapshots. -/
def LeanMomentumSelection.passes (entry : String × ℚ) : Bool :=
  if s.eligibility.isEmpty then s.filterHolds market entry.2 else s.eligibilityHolds market entry.1

end Ranking

section Stages

variable (market : GeneratedMarket) (s : LeanMomentumSelection)

/-- Scores a rebalance ranks. They are filtered when there is a filter. -/
def LeanMomentumSelection.rebalanceInput : List (String × ℚ) :=
  if s.filterThreshold.isSome ∨ !s.eligibility.isEmpty then
    (s.scores market).entries.filter (s.passes market)
  else (s.scores market).entries

def LeanMomentumSelection.afterCooldown (candidates : List String) : List String :=
  match s.cooldownStateId with
  | none => candidates
  | some state => candidates.filter (market.cooldownAllows state)

/-- Selection of a sleeve in a rebalance. Without a value the rebalance returns
before it orders anything. -/
def LeanMomentumSelection.rebalanceStage (fallbackSymbols : List String) :
    Option (List String) :=
  let selected := s.afterCooldown market ((s.rank (s.rebalanceInput market)).take s.count)
  match fallbackSymbols with
  | first :: _ => some (if selected.length < s.count then [first] else selected)
  | [] =>
      match s.cooldownStateId, s.shortagePolicy with
      | some _, _ => some selected
      | none, .requireFull => if selected.length < s.count then none else some selected
      | none, .chooseAll => if selected.length = 0 then none else some selected

/-- Selection of a retained snapshot. Without a value the old one is kept. -/
def LeanMomentumSelection.snapshotStage (fallbackSymbols : List String) :
    Option (List String) :=
  let selected := (s.rank ((s.scores market).entries.filter (s.passes market))).take s.count
  match fallbackSymbols with
  | first :: _ => some (if selected.length < s.count then [first] else selected)
  | [] => if selected.length < s.count then none else some selected

/-- Members ranked for a policy leg. The threshold filter plays no part. -/
def LeanMomentumSelection.policyRanked : List String :=
  s.rank ((s.scores market).entries.filter (fun entry => s.eligibilityHolds market entry.1))

/-- Selection of a leg of the composable policy. -/
def LeanMomentumSelection.policyStage (fallbackSymbols : List String) : List String :=
  let selected := (s.policyRanked market).take s.count
  if s.success selected then selected else fallbackSymbols

/-- Places of the generated algorithm that select. -/
inductive SelectionPath where
  | rebalance
  | snapshot
  | policy
  deriving DecidableEq, Repr

/-- Assets a place invests in. -/
def SelectionPath.invests (path : SelectionPath) (fallbackSymbols : List String) : List String :=
  match path with
  | .rebalance => (s.rebalanceStage market fallbackSymbols).getD []
  | .snapshot => (s.snapshotStage market fallbackSymbols).getD []
  | .policy => s.policyStage market fallbackSymbols

end Stages

end RuleTrade
