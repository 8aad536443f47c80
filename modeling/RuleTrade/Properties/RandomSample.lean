import Mathlib.Data.List.GetD
import RuleTrade.Backend.RandomHelper
import RuleTrade.Library.Logged

/-! The random helper of the generated algorithm against the reference: one stream
of words, and one sample where the reference draws from a pool. -/

namespace RuleTrade

open Library
open Library.MersenneTwister (Generator stream)

section Stream

namespace RuleTradeRandom

theorem bitLength_eq (n : Nat) : bitLength n = RuleTrade.bitLength n := by
  induction n using Nat.strong_induction_on with
  | _ n ih =>
      rw [bitLength, RuleTrade.bitLength]
      rcases Nat.eq_zero_or_pos n with hZero | hPositive
      · rw [if_pos hZero, if_pos hZero]
      rw [if_neg hPositive.ne', if_neg hPositive.ne', ih (n / 2) (by omega), RuleTrade.bitLength]
      rcases Nat.lt_or_ge n 2 with hOne | hMore
      · obtain rfl : n = 1 := by omega
        rfl
      · rw [if_neg (by omega), Nat.log2_def n, if_pos hMore]

def PythonRandom.toGenerator (random : PythonRandom) : Generator := ⟨random.state, random.index⟩

theorem renew_eq (state : List UInt32) (i : Nat) :
    renew state i = MersenneTwister.regenerateAt state i := by
  rw [renew, MersenneTwister.regenerateAt, MersenneTwister.twist, ← UInt32.xor_assoc]
  rfl

theorem nextUInt32_eq (random : PythonRandom) :
    (nextUInt32 random).1 = random.toGenerator.next.1 ∧
      (nextUInt32 random).2.toGenerator = random.toGenerator.next.2 := by
  have hRenew : (List.range 624).foldl renew random.state =
      MersenneTwister.regenerate random.state := by
    rw [MersenneTwister.regenerate, MersenneTwister.size]
    congr 1
    funext state i
    exact renew_eq state i
  rcases Nat.lt_or_ge random.index 624 with hInside | hRead
  · rw [Generator.next_of_lt (show random.toGenerator.index < MersenneTwister.size from hInside),
      nextUInt32, if_neg (Nat.not_le.mpr hInside)]
    exact ⟨rfl, rfl⟩
  · rw [Generator.next_of_le (show MersenneTwister.size ≤ random.toGenerator.index from hRead),
      nextUInt32, if_pos hRead, hRenew, PythonRandom.toGenerator]
    generalize MersenneTwister.regenerate random.state = state
    exact ⟨rfl, rfl⟩

theorem initGenRand_eq (seed : UInt32) : initGenRand seed = MersenneTwister.initGenrand seed := by
  have hZeros : (List.replicate 624 (0 : UInt32)).set 0 seed = seed :: List.replicate 623 0 := by
    rw [show (624 : Nat) = 623 + 1 by rfl, List.replicate_succ, List.set_cons_zero]
  rw [initGenRand, MersenneTwister.initGenrand, hZeros]
  rfl

theorem place_succ (round : Nat) :
    (if 624 ≤ MersenneTwister.place round + 1 then 1 else MersenneTwister.place round + 1) =
      MersenneTwister.place (round + 1) := by
  rw [MersenneTwister.place, MersenneTwister.place]
  by_cases hLast : round % 623 = 622
  · rw [if_pos (by omega)]
    omega
  · rw [if_neg (by omega)]
    omega

theorem mod_succ {length : Nat} (h : 0 < length) (round : Nat) :
    (if length ≤ round % length + 1 then 0 else round % length + 1) = (round + 1) % length := by
  have hBound := Nat.mod_lt round h
  rw [← Nat.mod_add_mod round length 1]
  by_cases hLast : length ≤ round % length + 1
  · rw [if_pos hLast, show round % length + 1 = length by omega, Nat.mod_self]
  · rw [if_neg hLast, Nat.mod_eq_of_lt (Nat.not_le.mp hLast)]

/-- The loops write the place and read the word of the key that the round has. -/
theorem keyRound_iterate {key : List UInt32} (hKey : 0 < key.length) (table : List UInt32)
    (rounds : Nat) :
    (Seeding.keyRound key)^[rounds] ⟨table, 1, 0⟩ =
      ⟨(List.range rounds).foldl (MersenneTwister.keyRound key) table,
        MersenneTwister.place rounds, rounds % key.length⟩ := by
  induction rounds with
  | zero => rw [Nat.zero_mod]; rfl
  | succ rounds ih =>
      rw [Function.iterate_succ_apply', ih, Seeding.keyRound, List.range_succ, List.foldl_append,
        ← place_succ, ← mod_succ hKey]
      rfl

theorem placeRound_iterate (table : List UInt32) (start j rounds : Nat) :
    Seeding.placeRound^[rounds] ⟨table, MersenneTwister.place start, j⟩ =
      ⟨(List.range rounds).foldl (fun table r => MersenneTwister.placeRound table (start + r)) table,
        MersenneTwister.place (start + rounds), j⟩ := by
  induction rounds with
  | zero => rfl
  | succ rounds ih =>
      rw [Function.iterate_succ_apply', ih, Seeding.placeRound, List.range_succ,
        List.foldl_append, ← Nat.add_assoc, ← place_succ]
      rfl

theorem initByArray_eq {key : List UInt32} (hKey : 0 < key.length) :
    initByArray key = ⟨MersenneTwister.initByArray key, 624⟩ := by
  rw [initByArray, initGenRand_eq, keyRound_iterate hKey, placeRound_iterate,
    MersenneTwister.initByArray, MersenneTwister.size]

theorem pythonRandom_eq (seed : UInt64) :
    pythonRandom seed = ⟨MersenneTwister.initByArray (seedKey seed.toNat), 624⟩ := by
  have hLow : seed.toUInt32 = UInt32.ofNat seed.toNat := by
    apply UInt32.toNat_inj.mp
    rw [UInt64.toNat_toUInt32, UInt32.toNat_ofNat']
  have hHigh : (seed >>> 32).toUInt32 = UInt32.ofNat (seed.toNat / 2 ^ 32) := by
    apply UInt32.toNat_inj.mp
    rw [UInt64.toNat_toUInt32, UInt32.toNat_ofNat', UInt64.toNat_shiftRight,
      Nat.shiftRight_eq_div_pow]
    rfl
  have hBound : seed.toNat < 2 ^ 64 := seed.toNat_lt
  have hLimit : 4294967295 < seed ↔ ¬ seed.toNat < 2 ^ 32 := by
    rw [UInt64.lt_iff_toNat_lt]
    show 4294967295 < seed.toNat ↔ _
    omega
  rw [pythonRandom, seedKey]
  by_cases hSmall : seed.toNat < 2 ^ 32
  · rw [if_neg (fun h => hLimit.mp h hSmall), if_pos hSmall, hLow,
      initByArray_eq (List.length_pos_of_ne_nil (List.cons_ne_nil _ _))]
  · have hUpper : seed.toNat / 2 ^ 32 < 2 ^ 32 := by omega
    rw [if_pos (hLimit.mpr hSmall), if_neg hSmall, seedKey, if_pos hUpper,
      hLow, hHigh, initByArray_eq (List.length_pos_of_ne_nil (List.cons_ne_nil _ _))]

end RuleTradeRandom

end Stream

section Draws

variable {Random : Type} {next : Random → UInt32 × Random} {words : Nat → UInt32}
  {At : Random → Nat → Prop} {random : Random} {position fuel : Nat}

theorem bitLength_le {n bits : Nat} (h : n < 2 ^ bits) : bitLength n ≤ bits := by
  rw [bitLength]
  by_cases hZero : n = 0
  · rw [if_pos hZero]
    exact Nat.zero_le _
  · rw [if_neg hZero]
    exact (Nat.log2_lt hZero).mpr h

theorem getrandbits_of_le {bits : Nat} (h : bits ≤ 32) :
    getrandbits words position bits =
      ((words position >>> UInt32.ofNat (32 - bits)).toNat, position + 1) := by
  rw [getrandbits, if_pos h]

theorem randbelow_succ {n : Nat} (h : n < 2 ^ 32) (tries position : Nat) :
    randbelow words n (tries + 1) position =
      if n ≤ (words position >>> UInt32.ofNat (32 - bitLength n)).toNat then
        randbelow words n tries (position + 1)
      else .ok ((words position >>> UInt32.ofNat (32 - bitLength n)).toNat, position + 1) := by
  rw [randbelow, getrandbits_of_le (bitLength_le h)]

theorem samplePool_cons {n i j next : Nat} {pool : List String}
    (h : randbelow words (n - i) fuel position = .ok (j, next)) (later : List Nat) :
    samplePool words fuel n (i :: later) pool position =
      (samplePool words fuel n later (pool.set j (pool.getD (n - i - 1) "")) next).map
        (pool.getD j "" :: ·) := by
  rw [samplePool, h]
  rfl

namespace RuleTradeRandom

theorem randBelow_succ (upper tries : Nat) (random : Random) :
    randBelow next upper (tries + 1) random =
      if upper ≤ ((next random).1 >>> UInt32.ofNat (32 - RuleTrade.bitLength upper)).toNat then
        randBelow next upper tries (next random).2
      else .ok (((next random).1 >>> UInt32.ofNat (32 - RuleTrade.bitLength upper)).toNat,
        (next random).2) := by
  rw [randBelow, getRandBits, bitLength_eq]

/-- A source that gives the words from each position on. -/
def Follows (next : Random → UInt32 × Random) (words : Nat → UInt32)
    (At : Random → Nat → Prop) : Prop :=
  ∀ random position, At random position →
    (next random).1 = words position ∧ At (next random).2 (position + 1)

/-- A draw from the source and the draw from its position. -/
inductive SameDraw (At : Random → Nat → Prop) :
    Except SampleFailure (Nat × Random) → Except SampleFailure (Nat × Nat) → Prop
  | ok {value : Nat} {random : Random} {position : Nat} (h : At random position) :
      SameDraw At (.ok (value, random)) (.ok (value, position))
  | error (failure : SampleFailure) : SameDraw At (.error failure) (.error failure)

theorem SameDraw.of_error {drawn : Except SampleFailure (Nat × Random)} {failure : SampleFailure}
    (h : SameDraw At drawn (.error failure)) : drawn = .error failure := by
  cases h
  rfl

theorem SameDraw.of_ok {drawn : Except SampleFailure (Nat × Random)} {value : Nat}
    (h : SameDraw At drawn (.ok (value, position))) :
    ∃ random, drawn = .ok (value, random) ∧ At random position := by
  cases h with
  | ok hAt => exact ⟨_, rfl, hAt⟩

theorem Follows.randBelow (h : Follows next words At) (hAt : At random position) {upper : Nat}
    (hUpper : upper < 2 ^ 32) (tries : Nat) :
    SameDraw At (randBelow next upper tries random) (randbelow words upper tries position) := by
  induction tries generalizing random position with
  | zero => exact .error _
  | succ tries ih =>
      obtain ⟨hWord, hNext⟩ := h random position hAt
      rw [randBelow_succ, randbelow_succ hUpper, ← hWord]
      by_cases hRejected :
          upper ≤ ((next random).1 >>> UInt32.ofNat (32 - RuleTrade.bitLength upper)).toNat
      · rw [if_pos hRejected, if_pos hRejected]
        exact ih hNext
      · rw [if_neg hRejected, if_neg hRejected]
        exact .ok hNext

/-- The loop fills its result with what the pool method draws. -/
theorem Follows.fill (h : Follows next words At) (hAt : At random position) {length : Nat}
    (hLength : length < 2 ^ 32) (rounds : List Nat) (pool result : List String) :
    fill next fuel length rounds pool result random =
      (samplePool words fuel length rounds pool position).map (result ++ ·) := by
  induction rounds generalizing random position pool result with
  | nil =>
      rw [RuleTradeRandom.fill, samplePool]
      exact congrArg Except.ok (List.append_nil result).symm
  | cons i later ih =>
      have hUpper : length - i < 2 ^ 32 := by omega
      have hDraw := h.randBelow hAt hUpper fuel
      cases hReference : randbelow words (length - i) fuel position with
      | error failure =>
          rw [hReference] at hDraw
          rw [RuleTradeRandom.fill, samplePool, hReference, hDraw.of_error]
          rfl
      | ok drawn =>
          obtain ⟨value, position'⟩ := drawn
          rw [hReference] at hDraw
          obtain ⟨random', hGenerated, hAt'⟩ := hDraw.of_ok
          rw [samplePool_cons hReference, RuleTradeRandom.fill, hGenerated]
          show RuleTradeRandom.fill next fuel length later _ _ random' = _
          rw [ih hAt']
          cases samplePool words fuel length later
            (pool.set value (pool.getD (length - i - 1) "")) position' with
          | error failure => rfl
          | ok rest => exact congrArg Except.ok (List.append_assoc _ _ _)

theorem Follows.sampleFrom (h : Follows next words At) (hAt : At random 0)
    {population : List String} (hLength : population.length < 2 ^ 32) {k : Nat}
    (hk : k ≤ population.length) :
    sampleFrom next fuel random population k =
      (samplePool words fuel population.length (List.range k) population 0).map
        (Sequence.sortBy ordinalUnits) := by
  have hRange : ¬ ((k : Int) < 0 ∨ (population.length : Int) < k) := by omega
  rw [RuleTradeRandom.sampleFrom, if_neg hRange, h.fill hAt hLength, Int.toNat_natCast]
  cases samplePool words fuel population.length (List.range k) population 0 <;> rfl

/-- The generator follows the stream of its seed. -/
theorem follows_stream (key : List UInt32) :
    Follows nextUInt32 (stream key) fun random position =>
      random.toGenerator.At (fun k => (MersenneTwister.initByArray key).getD k 0) position := by
  intro random position hAt
  obtain ⟨hWord, hNext⟩ := hAt.next
  refine ⟨(nextUInt32_eq random).1.trans hWord, ?_⟩
  show (nextUInt32 random).2.toGenerator.At _ _
  rw [(nextUInt32_eq random).2]
  exact hNext

/-- Every sample is drawn by the pool method from the words of the seed. -/
theorem sample_eq_pool {population : List String} (hLength : population.length < 2 ^ 32) {k : Nat}
    (hk : k ≤ population.length) (seed : UInt64) :
    sample fuel population k seed =
      (samplePool (stream (seedKey seed.toNat)) fuel population.length (List.range k)
        population 0).map (Sequence.sortBy ordinalUnits) := by
  have hStart : (pythonRandom seed).toGenerator.At
      (fun k => (MersenneTwister.initByArray (seedKey seed.toNat)).getD k 0) 0 := by
    have hSeeded : (pythonRandom seed).toGenerator =
        ⟨MersenneTwister.initByArray (seedKey seed.toNat), MersenneTwister.size⟩ := by
      rw [pythonRandom_eq, MersenneTwister.size, PythonRandom.toGenerator]
    rw [hSeeded]
    exact Generator.at_stream (seedKey seed.toNat)
  exact (follows_stream (seedKey seed.toNat)).sampleFrom hStart hLength hk

end RuleTradeRandom

end Draws

section Order

def IsAscii (text : String) : Prop := ∀ c ∈ text.toList, c.toNat < 128

instance : DecidablePred IsAscii := fun text =>
  List.decidableBAll (fun c : Char => c.toNat < 128) text.toList

theorem ordinalUnits_of_ascii {text : String} (h : IsAscii text) :
    RuleTradeRandom.ordinalUnits text = text.toList.map Char.toNat := by
  have hUnit : ∀ c ∈ text.toList, (if c.toNat < 0x10000 then [c.toNat]
      else [0xd800 + (c.toNat - 0x10000) / 0x400, 0xdc00 + (c.toNat - 0x10000) % 0x400]) =
      [c.toNat] := by
    intro c hc
    have hSmall := h c hc
    rw [if_pos (by omega)]
  rw [RuleTradeRandom.ordinalUnits, List.flatMap_congr hUnit,
    List.map_eq_flatMap]

theorem ordinalUnits_le_iff {left right : String} (hLeft : IsAscii left) (hRight : IsAscii right) :
    RuleTradeRandom.ordinalUnits left ≤ RuleTradeRandom.ordinalUnits right ↔ left ≤ right := by
  rw [ordinalUnits_of_ascii hLeft, ordinalUnits_of_ascii hRight, String.le_iff_toList_le]
  have hMono : ∀ x y : Char, x < y → x.toNat < y.toNat := fun _ _ h => h
  constructor
  · intro hUnits
    by_contra hMore
    exact not_lt_of_ge hUnits (List.map_lt hMono (not_le.mp hMore))
  · intro hTexts
    rcases hTexts.lt_or_eq with hLess | hSame
    · exact (List.map_lt hMono hLess).le
    · exact (congrArg (List.map Char.toNat) hSame).le

theorem sortBy_ordinalUnits {texts : List String} (h : ∀ text ∈ texts, IsAscii text) :
    Sequence.sortBy RuleTradeRandom.ordinalUnits texts = Sequence.sortBy id texts := by
  have hSorted := List.map_insertionSort
    (fun left right : String => RuleTradeRandom.ordinalUnits left ≤ RuleTradeRandom.ordinalUnits right)
    (fun left right : String => left ≤ right) id texts
    (fun left hLeft right hRight => ordinalUnits_le_iff (h left hLeft) (h right hRight))
  rw [List.map_id, List.map_id] at hSorted
  exact hSorted

end Order

section Methods

variable {words : Nat → UInt32} {fuel : Nat}

theorem forall_of_samplePool {P : String → Prop} (hEmpty : P "") {n : Nat} {rounds : List Nat}
    {pool result : List String} {position : Nat} (hPool : ∀ text ∈ pool, P text)
    (h : samplePool words fuel n rounds pool position = .ok result) : ∀ text ∈ result, P text := by
  have hItem (pool : List String) (hPool : ∀ text ∈ pool, P text) (j : Nat) : P (pool.getD j "") := by
    rw [List.getD_eq_getElem?_getD]
    cases hGet : pool[j]? with
    | none => exact hEmpty
    | some text => exact hPool text (List.mem_of_getElem? hGet)
  induction rounds generalizing pool result position with
  | nil =>
      rw [samplePool] at h
      cases h
      exact fun text hText => absurd hText List.not_mem_nil
  | cons i later ih =>
      cases hDraw : randbelow words (n - i) fuel position with
      | error failure =>
          rw [samplePool, hDraw] at h
          cases h
      | ok drawn =>
          obtain ⟨j, next⟩ := drawn
          rw [samplePool_cons hDraw] at h
          obtain ⟨rest, hRest, rfl⟩ := except_map_ok.mp h
          have hVacancy : ∀ text ∈ pool.set j (pool.getD (n - i - 1) ""), P text := by
            intro text hText
            rcases List.mem_or_eq_of_mem_set hText with hKept | rfl
            · exact hPool text hKept
            · exact hItem pool hPool _
          intro text hText
          rcases List.mem_cons.mp hText with rfl | hLater
          · exact hItem pool hPool j
          · exact ih hVacancy hRest text hLater

theorem sampleSet_cons {population : List String} {selected later : List Nat}
    {i j next j' next' position : Nat} {rest : List String}
    (hDraw : randbelow words population.length fuel position = .ok (j, next))
    (hRedraw : redraw words fuel population.length selected fuel j next = .ok (j', next'))
    (hRest : sampleSet words fuel population later (j' :: selected) next' = .ok rest) :
    sampleSet words fuel population (i :: later) selected position =
      .ok (population.getD j' "" :: rest) := by
  rw [sampleSet, hDraw]
  show (redraw words fuel population.length selected fuel j next >>= _) = _
  rw [hRedraw]
  show (sampleSet words fuel population later (j' :: selected) next' >>= _) = _
  rw [hRest]
  rfl

/-- One draw from the whole population is one draw from the pool. -/
theorem sampleSet_one (population : List String) (position : Nat) :
    sampleSet words fuel population [0] [] position =
      samplePool words fuel population.length [0] population position := by
  rw [sampleSet, samplePool, Nat.sub_zero]
  cases hDraw : randbelow words population.length fuel position with
  | error failure => rfl
  | ok drawn =>
      cases fuel with
      | zero => cases hDraw
      | succ fuel => rfl

theorem sample_of_condition {population : List String} {k : Nat} (hk : k ≤ population.length)
    (h : k ≤ 1 ∨ population.length ≤ setsize k) :
    RuleTrade.sample words fuel population k =
      samplePool words fuel population.length (List.range k) population 0 := by
  have hRange : ¬ ((k : Int) < 0 ∨ (population.length : Int) < k) := by omega
  rw [RuleTrade.sample, if_neg hRange, Int.toNat_natCast]
  by_cases hPool : population.length ≤ setsize k
  · rw [if_pos hPool]
  · rw [if_neg hPool]
    have hFew : k = 0 ∨ k = 1 := by omega
    rcases hFew with rfl | rfl
    · rfl
    · exact sampleSet_one population 0

end Methods

section Repeats

/-- Words that draw 0 twice and then 1, 2, ... below a bound of that many bits. -/
def repeatedWords (bits position : Nat) : UInt32 :=
  UInt32.ofNat ((position - 1) * 2 ^ (32 - bits))

variable {n position tries : Nat}

theorem lt_two_pow_bitLength (n : Nat) : n < 2 ^ bitLength n := by
  rw [bitLength]
  by_cases hZero : n = 0
  · rw [if_pos hZero, hZero]
    exact Nat.two_pow_pos 0
  · rw [if_neg hZero]
    exact (Nat.log2_lt hZero).mp (Nat.lt_succ_self _)

theorem bitLength_pos (h : 0 < n) : 0 < bitLength n := by
  rw [bitLength, if_neg h.ne']
  exact Nat.succ_pos _

theorem repeatedWords_shift {bits : Nat} (hBits : 0 < bits) (hWord : bits ≤ 32)
    (h : position - 1 < 2 ^ bits) :
    (repeatedWords bits position >>> UInt32.ofNat (32 - bits)).toNat = position - 1 := by
  have hFits : (position - 1) * 2 ^ (32 - bits) < 2 ^ 32 := by
    calc (position - 1) * 2 ^ (32 - bits) < 2 ^ bits * 2 ^ (32 - bits) :=
          Nat.mul_lt_mul_of_pos_right h (Nat.two_pow_pos _)
      _ = 2 ^ 32 := by rw [← Nat.pow_add, Nat.add_sub_cancel' hWord]
  have hShift : (32 - bits) % 2 ^ 32 % 32 = 32 - bits := by omega
  rw [UInt32.toNat_shiftRight, repeatedWords, UInt32.toNat_ofNat', UInt32.toNat_ofNat',
    Nat.mod_eq_of_lt hFits, hShift, Nat.shiftRight_eq_div_pow,
    Nat.mul_div_cancel _ (Nat.two_pow_pos _)]

theorem randbelow_repeated (hn : n < 2 ^ 32) (h : position - 1 < n) :
    randbelow (repeatedWords (bitLength n)) n (tries + 1) position =
      .ok (position - 1, position + 1) := by
  have hDrawn := repeatedWords_shift (bitLength_pos (Nat.lt_of_le_of_lt (Nat.zero_le _) h))
    (bitLength_le hn) (h.trans (lt_two_pow_bitLength n))
  rw [randbelow_succ hn, hDrawn, if_neg (Nat.not_le.mpr h)]

/-- The second word draws 0 below every bound. -/
theorem randbelow_second {bits bound : Nat} (hBound : bound < 2 ^ 32) (h : 0 < bound) :
    randbelow (repeatedWords bits) bound (tries + 1) 1 = .ok (0, 2) := by
  have hZero : repeatedWords bits 1 = 0 := by
    rw [repeatedWords, Nat.sub_self, Nat.zero_mul]
    rfl
  rw [randbelow_succ hBound, hZero, UInt32.zero_shiftRight]
  exact if_neg (Nat.not_le.mpr h)

theorem sampleSet_later {population : List String} (hLength : population.length < 2 ^ 32)
    (rounds selected : List Nat) {i : Nat} (hSelected : ∀ j ∈ selected, j < i)
    (h : i + rounds.length ≤ population.length) :
    ∃ result, sampleSet (repeatedWords (bitLength population.length)) 2 population rounds selected
        (i + 1) = .ok result ∧ ∀ text ∈ result, text ∈ population.take (i + rounds.length) := by
  induction rounds generalizing i selected with
  | nil => exact ⟨[], rfl, fun text hText => absurd hText List.not_mem_nil⟩
  | cons round later ih =>
      rw [List.length_cons] at h ⊢
      have hDraw : randbelow (repeatedWords (bitLength population.length)) population.length 2
          (i + 1) = .ok (i, i + 1 + 1) := randbelow_repeated hLength (by omega)
      have hNew : i ∉ selected := fun hOld => Nat.lt_irrefl i (hSelected i hOld)
      have hNext : ∀ j ∈ i :: selected, j < i + 1 := by
        intro j hj
        rcases List.mem_cons.mp hj with rfl | hOld
        · exact Nat.lt_succ_self _
        · exact (hSelected j hOld).trans (Nat.lt_succ_self _)
      obtain ⟨rest, hRest, hMembers⟩ := ih (i :: selected) hNext (by omega)
      refine ⟨population.getD i "" :: rest, ?_, ?_⟩
      · refine sampleSet_cons hDraw ?_ hRest
        rw [redraw, if_neg hNew]
      · intro text hText
        rcases List.mem_cons.mp hText with rfl | hLater
        · have hInside : i < (population.take (i + (later.length + 1))).length := by
            rw [List.length_take]
            omega
          rw [List.getD_eq_getElem _ _ (show i < population.length by omega)]
          exact List.mem_take_iff_getElem.mpr ⟨i, by omega, rfl⟩
        · rw [show i + (later.length + 1) = i + 1 + later.length by omega]
          exact hMembers text hLater

theorem setsize_lt {k : Nat} (h : setsize k < n) : k < n := by
  rw [setsize] at h
  by_cases hLarge : 5 < k
  · rw [if_pos hLarge] at h
    have hPower : k * 3 ≤ 4 ^ Nat.clog 4 (k * 3) := Nat.le_pow_clog (by decide) _
    omega
  · rw [if_neg hLarge] at h
    omega

theorem sample_repeated {population : List String} (hLength : population.length < 2 ^ 32)
    {k : Nat} (hTwo : 2 ≤ k) (hSet : setsize k < population.length) :
    ∃ result, RuleTrade.sample (repeatedWords (bitLength population.length)) 2 population k =
        .ok result ∧ ∀ text ∈ result, text ∈ population.take k := by
  obtain ⟨later, rfl⟩ := Nat.exists_eq_add_of_le' hTwo
  have hBound := setsize_lt hSet
  have hRange : ¬ (((later + 2 : Nat) : Int) < 0 ∨
      (population.length : Int) < (later + 2 : Nat)) := by omega
  have hRounds : List.range (later + 2) = 0 :: 1 :: List.range' 2 later := by
    rw [List.range_eq_range', List.range'_succ, List.range'_succ]
  have hLater : (List.range' 2 later).length = later := List.length_range'
  have hDrawnBelow : ∀ j ∈ [1, 0], j < 2 := by decide
  obtain ⟨rest, hRest, hMembers⟩ := sampleSet_later hLength (List.range' 2 later) [1, 0]
    hDrawnBelow (by omega)
  have hFirst : randbelow (repeatedWords (bitLength population.length)) population.length 2 0 =
      .ok (0, 1) := randbelow_repeated hLength (by omega)
  have hSecond : randbelow (repeatedWords (bitLength population.length)) population.length 2 1 =
      .ok (0, 2) := randbelow_repeated hLength (by omega)
  have hThird : randbelow (repeatedWords (bitLength population.length)) population.length 2 2 =
      .ok (1, 3) := randbelow_repeated hLength (by omega)
  have hDrawn : sampleSet (repeatedWords (bitLength population.length)) 2 population
      (List.range (later + 2)) [] 0 =
      .ok (population.getD 0 "" :: population.getD 1 "" :: rest) := by
    have hKept : redraw (repeatedWords (bitLength population.length)) 2 population.length []
        2 0 1 = .ok (0, 1) := by
      rw [redraw, if_neg List.not_mem_nil]
    have hRedrawn : redraw (repeatedWords (bitLength population.length)) 2 population.length [0]
        2 0 2 = .ok (1, 3) := by
      rw [redraw, if_pos (List.mem_singleton.mpr rfl), hThird]
      rfl
    rw [hRounds]
    exact sampleSet_cons hFirst hKept (sampleSet_cons hSecond hRedrawn hRest)
  have hTake (i : Nat) (hi : i < later + 2) :
      population.getD i "" ∈ population.take (later + 2) := by
    rw [List.getD_eq_getElem _ _ (show i < population.length by omega)]
    exact List.mem_take_iff_getElem.mpr ⟨i, by omega, rfl⟩
  refine ⟨population.getD 0 "" :: population.getD 1 "" :: rest, ?_, ?_⟩
  · rw [RuleTrade.sample, if_neg hRange, Int.toNat_natCast, if_neg (Nat.not_le.mpr hSet), hDrawn]
  · intro text hText
    rcases List.mem_cons.mp hText with rfl | hText
    · exact hTake 0 (by omega)
    rcases List.mem_cons.mp hText with rfl | hText
    · exact hTake 1 (by omega)
    · rw [Nat.add_comm later 2, ← hLater]
      exact hMembers text hText

/-- The pool method draws its last item from the vacancy of the first draw. -/
theorem last_of_samplePool_repeated {population : List String} {k bits : Nat}
    (hBits : bits = bitLength population.length) (hLength : population.length < 2 ^ 32)
    (hTwo : 2 ≤ k) (hk : k < population.length) {result : List String}
    (h : samplePool (repeatedWords bits) 2 population.length (List.range k) population 0 =
      .ok result) : population.getD (population.length - 1) "" ∈ result := by
  obtain ⟨later, rfl⟩ := Nat.exists_eq_add_of_le' hTwo
  have hRounds : List.range (later + 2) = 0 :: 1 :: List.range' 2 later := by
    rw [List.range_eq_range', List.range'_succ, List.range'_succ]
  have hFirst : randbelow (repeatedWords bits) (population.length - 0) 2 0 = .ok (0, 1) := by
    rw [hBits, Nat.sub_zero]
    exact randbelow_repeated hLength (by omega)
  have hSecond : randbelow (repeatedWords bits) (population.length - 1) 2 1 = .ok (0, 2) :=
    randbelow_second (by omega) (by omega)
  have hVacancy : (population.set 0 (population.getD (population.length - 1) "")).getD 0 "" =
      population.getD (population.length - 1) "" := by
    rw [List.getD_eq_getElem?_getD, List.getElem?_set_self (by omega)]
    rfl
  rw [hRounds, samplePool_cons hFirst, Nat.sub_zero] at h
  obtain ⟨tail, hTail, rfl⟩ := except_map_ok.mp h
  rw [samplePool_cons hSecond] at hTail
  obtain ⟨tail, -, rfl⟩ := except_map_ok.mp hTail
  rw [hVacancy]
  exact List.mem_cons_of_mem _ List.mem_cons_self

end Repeats

section Agreement

/-- A source that reads words one position after another. -/
def nextWord (words : Nat → UInt32) (position : Nat) : UInt32 × Nat := (words position, position + 1)

theorem follows_nextWord (words : Nat → UInt32) :
    RuleTradeRandom.Follows (nextWord words) words (fun random position => random = position) := by
  rintro random position rfl
  exact ⟨rfl, rfl⟩

variable {population : List String} {fuel k : Nat}

theorem sorted_samplePool (hAscii : ∀ text ∈ population, IsAscii text) (words : Nat → UInt32) :
    (samplePool words fuel population.length (List.range k) population 0).map
        (Sequence.sortBy RuleTradeRandom.ordinalUnits) =
      (samplePool words fuel population.length (List.range k) population 0).map
        (Sequence.sortBy id) := by
  have hEmpty : IsAscii "" := fun c hc => absurd hc List.not_mem_nil
  cases hDrawn : samplePool words fuel population.length (List.range k) population 0 with
  | error failure => rfl
  | ok drawn =>
      exact congrArg Except.ok (sortBy_ordinalUnits (forall_of_samplePool hEmpty hAscii hDrawn))

/-- The generated sample is the reference sample where the reference draws from a
pool, and only there whatever the words are. -/
theorem sample_agreement (hNodup : population.Nodup) (hAscii : ∀ text ∈ population, IsAscii text)
    (hLength : population.length ≤ 500) (hk : k ≤ population.length) :
    ((k ≤ 1 ∨ population.length ≤ setsize k) → ∀ (seed : UInt64) (fuel : Nat),
      RuleTradeRandom.sample fuel population k seed =
        selectSymbols fuel population seed.toNat (.randomN k)) ∧
    ((∀ (words : Nat → UInt32) (fuel : Nat),
      RuleTradeRandom.sampleFrom (nextWord words) fuel 0 population k =
        (sample words fuel population k).map (Sequence.sortBy id)) ↔
      k ≤ 1 ∨ population.length ≤ setsize k) := by
  have hBound : population.length < 2 ^ 32 := Nat.lt_of_le_of_lt hLength (by decide)
  have hFrom (words : Nat → UInt32) (fuel : Nat) :
      RuleTradeRandom.sampleFrom (nextWord words) fuel 0 population k =
        (samplePool words fuel population.length (List.range k) population 0).map
          (Sequence.sortBy id) := by
    rw [(follows_nextWord words).sampleFrom rfl hBound hk, sorted_samplePool hAscii]
  refine ⟨fun h seed fuel => ?_, fun h => ?_, fun h words fuel => ?_⟩
  · rw [RuleTradeRandom.sample_eq_pool hBound hk, sorted_samplePool hAscii, selectSymbols,
      sample_of_condition hk h]
  · by_contra hCondition
    have hTwo : 2 ≤ k := by omega
    have hSet : setsize k < population.length := by omega
    have hMore := setsize_lt hSet
    obtain ⟨result, hResult, hMembers⟩ := sample_repeated hBound hTwo hSet
    have hSame := h (repeatedWords (bitLength population.length)) 2
    rw [hFrom, hResult] at hSame
    obtain ⟨drawn, hDrawn, hSorted⟩ := except_map_ok.mp hSame
    have hLast := last_of_samplePool_repeated rfl hBound hTwo hMore hDrawn
    have hTaken : population.getD (population.length - 1) "" ∈ population.take k := by
      have hKept : population.getD (population.length - 1) "" ∈ Sequence.sortBy id drawn :=
        Sequence.mem_sortBy.mpr hLast
      rw [hSorted] at hKept
      exact hMembers _ (Sequence.mem_sortBy.mp hKept)
    rw [List.getD_eq_getElem _ _ (show population.length - 1 < population.length by omega)]
      at hTaken
    obtain ⟨i, hi, hItem⟩ := List.mem_take_iff_getElem.mp hTaken
    have hPlace := (List.Nodup.getElem_inj_iff hNodup).mp hItem
    omega
  · rw [hFrom, sample_of_condition hk h]

end Agreement

section Letters

/-- Thirty-two one-letter symbols. -/
def letterSymbols : List String :=
  "ABCDEFGHIJKLMNOPQRSTUVWXYZabcdef".toList.map String.singleton

set_option maxRecDepth 8000 in
theorem letters_agreement : RuleTradeRandom.sample 3 letterSymbols 1 7 =
    selectSymbols 3 letterSymbols 7 (.randomN 1) :=
  (@sample_agreement letterSymbols 1 (by decide) (by decide) (by decide) (by decide)).1
    (Or.inl le_rfl) 7 3

/-- First words of the seed 0. -/
def wordsOfZero : List UInt32 :=
  let table := MersenneTwister.seedTable [0]
  (List.range 5).map fun t => MersenneTwister.temper (table.getD (t + MersenneTwister.middle) 0 ^^^
    MersenneTwister.twist (table.getD t 0) (table.getD (t + 1) 0))

theorem wordsOfZero_eq :
    wordsOfZero = [3626764237, 1654615998, 3255389356, 3823568514, 1806341205] := by
  decide +kernel

theorem stream_zero {t : Nat} (h : t < 5) : stream (seedKey 0) t = wordsOfZero.getD t 0 := by
  have hKey : seedKey 0 = [0] := by
    rw [seedKey]
    rfl
  have hTable : MersenneTwister.initByArray [0] = MersenneTwister.seedTable [0] :=
    MersenneTwister.initByArray_eq_seedTable (show 1 ≤ 624 by decide)
  have hMiddle : t + MersenneTwister.middle < MersenneTwister.size := by
    show t + 397 < 624
    omega
  rw [hKey, stream, MersenneTwister.output_of_lt hMiddle, hTable, wordsOfZero]
  have hMapped (g : Nat → UInt32) : ((List.range 5).map g).getD t 0 = g t := by
    rw [List.getD_eq_getElem?_getD, List.getElem?_map, List.getElem?_range h]
    rfl
  rw [hMapped]

/-- The reference draws again below the same bound, the generated sample below a smaller one. -/
theorem two_letters_of_zero :
    RuleTradeRandom.sample 3 letterSymbols 2 0 = .ok ["Y", "f"] ∧
      selectSymbols 3 letterSymbols 0 (.randomN 2) = .ok ["Y", "a"] := by
  have hWord (t : Nat) (h : t < 5) : stream (seedKey 0) t =
      [3626764237, 1654615998, 3255389356, 3823568514, 1806341205].getD t 0 := by
    rw [stream_zero h, wordsOfZero_eq]
  have hLength : letterSymbols.length = 32 := by decide
  have hAll : (32 : Nat) < 2 ^ 32 := by decide
  have hFirst : randbelow (stream (seedKey 0)) 32 3 0 = .ok (24, 2) := by
    rw [randbelow_succ hAll, hWord 0 (by decide), if_pos (by decide), randbelow_succ hAll,
      hWord (0 + 1) (by decide), if_neg (by decide)]
    decide
  have hPool : randbelow (stream (seedKey 0)) (32 - 1) 3 2 = .ok (24, 3) := by
    rw [randbelow_succ (by decide), hWord 2 (by decide), if_neg (by decide)]
    decide
  have hSet : randbelow (stream (seedKey 0)) 32 3 2 = .ok (26, 5) := by
    rw [randbelow_succ hAll, hWord 2 (by decide), if_pos (by decide), randbelow_succ hAll,
      hWord (2 + 1) (by decide), if_pos (by decide), randbelow_succ hAll,
      hWord (2 + 1 + 1) (by decide), if_neg (by decide)]
    decide
  constructor
  · have hDrawn : samplePool (stream (seedKey 0)) 3 32 [0, 1] letterSymbols 0 =
        .ok ["Y", "f"] := by
      rw [samplePool_cons hFirst, samplePool_cons hPool, samplePool]
      decide
    have hSample : RuleTradeRandom.sample 3 letterSymbols (2 : Nat) 0 =
        (samplePool (stream (seedKey 0)) 3 letterSymbols.length (List.range 2) letterSymbols 0).map
          (Sequence.sortBy RuleTradeRandom.ordinalUnits) :=
      RuleTradeRandom.sample_eq_pool (by decide) (by decide) 0
    rw [hLength, show List.range 2 = [0, 1] from rfl, hDrawn] at hSample
    exact hSample.trans (by decide)
  · have hDrawn : sampleSet (stream (seedKey 0)) 3 letterSymbols [0, 1] [] 0 = .ok ["Y", "a"] := by
      rw [← hLength] at hFirst hSet
      have hNone : sampleSet (stream (seedKey 0)) 3 letterSymbols [] [26, 24] 5 = .ok [] := by
        rw [sampleSet]
      refine sampleSet_cons hFirst ?_ (sampleSet_cons hSet ?_ hNone)
      · rw [redraw, if_neg (by decide)]
      · rw [redraw, if_neg (by decide)]
    have hSize : ¬ letterSymbols.length ≤ setsize (Int.toNat 2) := by decide
    rw [selectSymbols, RuleTrade.sample, if_neg (by decide), if_neg hSize]
    show (sampleSet (stream (seedKey 0)) 3 letterSymbols [0, 1] [] 0).map _ = _
    rw [hDrawn]
    decide

end Letters

end RuleTrade
