import RuleTrade.Strategy.RandomSample

/-! The random helper of the generated algorithm: its own generator, and samples
that are drawn from a pool. -/

namespace RuleTrade

open Library

namespace RuleTradeRandom

/-- Fields of the `PythonRandom` class. -/
structure PythonRandom where
  state : List UInt32
  index : Nat

section Seeding

def initGenRand (seed : UInt32) : List UInt32 :=
  (List.range 623).foldl
    (fun (state : List UInt32) k =>
      let index := k + 1
      let before := state.getD (index - 1) 0
      state.set index ((1812433253 : UInt32) * (before ^^^ (before >>> 30)) + UInt32.ofNat index))
    ((List.replicate 624 0).set 0 seed)

/-- Variables of `InitByArray`. -/
structure Seeding where
  state : List UInt32
  i : Nat
  j : Nat

/-- A round of the first loop. -/
def Seeding.keyRound (key : List UInt32) (s : Seeding) : Seeding :=
  let before := s.state.getD (s.i - 1) 0
  let state := s.state.set s.i
    ((s.state.getD s.i 0 ^^^ ((before ^^^ (before >>> 30)) * 1664525))
      + key.getD s.j 0 + UInt32.ofNat s.j)
  let i := s.i + 1
  let j := s.j + 1
  { state := if 624 ≤ i then state.set 0 (state.getD 623 0) else state
    i := if 624 ≤ i then 1 else i
    j := if key.length ≤ j then 0 else j }

/-- A round of the second loop. -/
def Seeding.placeRound (s : Seeding) : Seeding :=
  let before := s.state.getD (s.i - 1) 0
  let state := s.state.set s.i
    ((s.state.getD s.i 0 ^^^ ((before ^^^ (before >>> 30)) * 1566083941)) - UInt32.ofNat s.i)
  let i := s.i + 1
  { s with
    state := if 624 ≤ i then state.set 0 (state.getD 623 0) else state
    i := if 624 ≤ i then 1 else i }

def initByArray (key : List UInt32) : PythonRandom :=
  let keyed := (Seeding.keyRound key)^[max 624 key.length] ⟨initGenRand 19650218, 1, 0⟩
  let mixed := Seeding.placeRound^[623] keyed
  ⟨mixed.state.set 0 0x80000000, 624⟩

/-- The constructor: the words of a seed, the upper one where there is one. -/
def pythonRandom (seed : UInt64) : PythonRandom :=
  initByArray (if 4294967295 < seed then [seed.toUInt32, (seed >>> 32).toUInt32]
    else [seed.toUInt32])

end Seeding

/-- A round of the loop that renews the state. -/
def renew (state : List UInt32) (i : Nat) : List UInt32 :=
  let y := (state.getD i 0 &&& 0x80000000) ||| (state.getD ((i + 1) % 624) 0 &&& 0x7fffffff)
  state.set i (state.getD ((i + 397) % 624) 0 ^^^ (y >>> 1)
    ^^^ (if y &&& 1 = 0 then 0 else 0x9908b0df))

def nextUInt32 (random : PythonRandom) : UInt32 × PythonRandom :=
  let random := if 624 ≤ random.index then ⟨(List.range 624).foldl renew random.state, 0⟩ else random
  let value := random.state.getD random.index 0
  let value := value ^^^ (value >>> 11)
  let value := value ^^^ ((value <<< 7) &&& 0x9d2c5680)
  let value := value ^^^ ((value <<< 15) &&& 0xefc60000)
  let value := value ^^^ (value >>> 18)
  (value, { random with index := random.index + 1 })

/-- Bits of a number, shifted out one at a time. -/
def bitLength (value : Nat) : Nat :=
  if value = 0 then 0 else bitLength (value / 2) + 1
termination_by value
decreasing_by omega

section Sample

-- The generator is a parameter here, so that draws can be read from any source.
variable {Random : Type} (nextUInt32 : Random → UInt32 × Random) (fuel : Nat)

def getRandBits (random : Random) (bits : Nat) : UInt32 × Random :=
  let (value, random) := nextUInt32 random
  (value >>> UInt32.ofNat (32 - bits), random)

def randBelow (upperExclusive : Nat) : Nat → Random → Except SampleFailure (Nat × Random)
  | 0, _ => .error .stillDrawing
  | tries + 1, random =>
      let (value, random) := getRandBits nextUInt32 random (bitLength upperExclusive)
      if upperExclusive ≤ value.toNat then randBelow upperExclusive tries random
      else .ok (value.toNat, random)

/-- The loop of `Sample`. -/
def fill (length : Nat) :
    List Nat → List String → List String → Random → Except SampleFailure (List String)
  | [], _, result, _ => .ok result
  | i :: later, pool, result, random => do
      let (index, random) ← randBelow nextUInt32 (length - i) fuel random
      fill length later (pool.set index (pool.getD (length - i - 1) ""))
        (result ++ [pool.getD index ""]) random

/-- UTF-16 units of a text, by which `StringComparer.Ordinal` compares. -/
def ordinalUnits (text : String) : List Nat :=
  text.toList.flatMap fun c =>
    if c.toNat < 0x10000 then [c.toNat]
    else [0xd800 + (c.toNat - 0x10000) / 0x400, 0xdc00 + (c.toNat - 0x10000) % 0x400]

def sampleFrom (random : Random) (population : List String) (count : Int) :
    Except SampleFailure (List String) :=
  if count < 0 ∨ population.length < count then .error .outOfRange
  else (fill nextUInt32 fuel population.length (List.range count.toNat) population [] random).map
    (Sequence.sortBy ordinalUnits)

end Sample

def sample (fuel : Nat) (population : List String) (count : Int) (seed : UInt64) :
    Except SampleFailure (List String) :=
  sampleFrom nextUInt32 fuel (pythonRandom seed) population count

end RuleTradeRandom

end RuleTrade
