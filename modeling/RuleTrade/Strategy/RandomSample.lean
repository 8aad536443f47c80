import Mathlib.Data.Nat.Log
import Mathlib.Data.String.Basic
import RuleTrade.Library.MersenneTwister
import RuleTrade.Library.Sequence

/-! Random selection of symbols: CPython's `random.Random(seed).sample` over the
outputs of the generator, and `select_symbols` over it. A loop that draws until a
draw is accepted draws a bounded number of times. -/

namespace RuleTrade

open Library
open Library.MersenneTwister (stream)

inductive SampleFailure
  | outOfRange
  | stillDrawing
deriving Repr, DecidableEq

/-- The words of a seed, the lowest one first. -/
def seedKey (seed : Nat) : List UInt32 :=
  if seed < 2 ^ 32 then [UInt32.ofNat seed] else UInt32.ofNat seed :: seedKey (seed / 2 ^ 32)
termination_by seed
decreasing_by omega

def bitLength (n : Nat) : Nat := if n = 0 then 0 else Nat.log2 n + 1

section Sample

variable (words : Nat → UInt32) (fuel : Nat)

/-- Bits from the outputs at a position on, with the position after them. -/
def getrandbits (position bits : Nat) : Nat × Nat :=
  if bits ≤ 32 then ((words position >>> UInt32.ofNat (32 - bits)).toNat, position + 1)
  else
    let (high, next) := getrandbits (position + 1) (bits - 32)
    ((words position).toNat + 2 ^ 32 * high, next)
termination_by bits

/-- A number below a bound, drawn until one is. -/
def randbelow (n : Nat) : Nat → Nat → Except SampleFailure (Nat × Nat)
  | 0, _ => .error .stillDrawing
  | tries + 1, position =>
      let (r, next) := getrandbits words position (bitLength n)
      if n ≤ r then randbelow n tries next else .ok (r, next)

/-- Draws from a pool, whose last unselected item moves into the vacancy. -/
def samplePool (n : Nat) : List Nat → List String → Nat → Except SampleFailure (List String)
  | [], _, _ => .ok []
  | i :: later, pool, position => do
      let (j, next) ← randbelow words (n - i) fuel position
      let rest ← samplePool n later (pool.set j (pool.getD (n - i - 1) "")) next
      return pool.getD j "" :: rest

/-- `while j in selected: j = randbelow(n)`. -/
def redraw (n : Nat) (selected : List Nat) : Nat → Nat → Nat → Except SampleFailure (Nat × Nat)
  | 0, _, _ => .error .stillDrawing
  | tries + 1, j, position =>
      if j ∈ selected then do
        let (j, next) ← randbelow words n fuel position
        redraw n selected tries j next
      else .ok (j, position)

/-- Draws from the whole population, repeats rejected. -/
def sampleSet (population : List String) :
    List Nat → List Nat → Nat → Except SampleFailure (List String)
  | [], _, _ => .ok []
  | _ :: later, selected, position => do
      let (j, next) ← randbelow words population.length fuel position
      let (j, next) ← redraw words fuel population.length selected fuel j next
      let rest ← sampleSet population later (j :: selected) next
      return population.getD j "" :: rest

/-- Size of a pool that is smaller than a set of the sample. -/
def setsize (k : Nat) : Nat := if 5 < k then 21 + 4 ^ Nat.clog 4 (k * 3) else 21

def sample (population : List String) (k : Int) : Except SampleFailure (List String) :=
  if k < 0 ∨ population.length < k then .error .outOfRange
  else if population.length ≤ setsize k.toNat then
    samplePool words fuel population.length (List.range k.toNat) population 0
  else sampleSet words fuel population (List.range k.toNat) [] 0

end Sample

inductive SelectionSpec
  | all
  | randomN (count : Int)
deriving Repr, DecidableEq

/-- The selected symbols of a universe, a random sample in sorted order. -/
def selectSymbols (fuel : Nat) (symbols : List String) (seed : Nat) :
    SelectionSpec → Except SampleFailure (List String)
  | .all => .ok symbols
  | .randomN count =>
      (sample (stream (seedKey seed)) fuel symbols count).map (Sequence.sortBy id)

end RuleTrade
