import Mathlib.Data.List.Basic
import Mathlib.Data.Nat.Basic

/-! The Mersenne Twister MT19937: its recurrence over words, its tempering, its
seeding by an array, and a table that is regenerated in place. A table that is
read past its end holds the next words of the recurrence. -/

namespace Library.MersenneTwister

/-- Length of the table. -/
def size : Nat := 624

/-- Distance of the middle word. -/
def middle : Nat := 397

section Recurrence

/-- Upper bit of one word and the lower bits of the next, shifted through the matrix. -/
def twist (upper lower : UInt32) : UInt32 :=
  let y := (upper &&& 0x80000000) ||| (lower &&& 0x7fffffff)
  (y >>> 1) ^^^ (if y &&& 1 = 0 then 0 else 0x9908b0df)

/-- Words of the recurrence, the first ones given. -/
def word (first : Nat → UInt32) (k : Nat) : UInt32 :=
  if k < 624 then first k
  else word first (k - 227) ^^^ twist (word first (k - 624)) (word first (k - 623))
termination_by k
decreasing_by all_goals omega

def temper (word : UInt32) : UInt32 :=
  let a := word ^^^ (word >>> 11)
  let b := a ^^^ ((a <<< 7) &&& 0x9d2c5680)
  let c := b ^^^ ((b <<< 15) &&& 0xefc60000)
  c ^^^ (c >>> 18)

/-- Outputs of the generator. -/
def output (first : Nat → UInt32) (t : Nat) : UInt32 := temper (word first (size + t))

variable {first : Nat → UInt32}

theorem word_of_lt {k : Nat} (h : k < size) : word first k = first k := by
  have hFirst : k < 624 := h
  rw [word, if_pos hFirst]

theorem word_add (first : Nat → UInt32) (k : Nat) :
    word first (k + size) =
      word first (k + middle) ^^^ twist (word first k) (word first (k + 1)) := by
  rw [word, if_neg (by simp only [size]; omega)]
  simp only [size, middle]
  rw [show k + 624 - 227 = k + 397 by omega, show k + 624 - 624 = k by omega,
    show k + 624 - 623 = k + 1 by omega]

/-- The first outputs come from words that are given. -/
theorem output_of_lt {t : Nat} (h : t + middle < size) :
    output first t = temper (first (t + middle) ^^^ twist (first t) (first (t + 1))) := by
  have hMiddle : 1 ≤ middle := Nat.succ_le_succ (Nat.zero_le 396)
  rw [output, Nat.add_comm, word_add, word_of_lt h, word_of_lt (by omega), word_of_lt (by omega)]

end Recurrence

section Table

/-- Rewrite one word of the table. -/
def regenerateAt (table : List UInt32) (i : Nat) : List UInt32 :=
  table.set i (table.getD ((i + middle) % size) 0 ^^^
    twist (table.getD i 0) (table.getD ((i + 1) % size) 0))

def regenerate (table : List UInt32) : List UInt32 :=
  (List.range size).foldl regenerateAt table

variable {first : Nat → UInt32} {table : List UInt32} {base : Nat}

/-- A table of words from a base on, the first few already those of the next. -/
structure Holds (first : Nat → UInt32) (table : List UInt32) (base done : Nat) : Prop where
  length : table.length = size
  renewed : ∀ j, j < done → table.getD j 0 = word first (base + size + j)
  kept : ∀ j, done ≤ j → j < size → table.getD j 0 = word first (base + j)

/-- The word that a rewriting reads is the one that the recurrence reads, wherever
the table has come to. -/
theorem Holds.step {done : Nat} (h : Holds first table base done) (hDone : done < size) :
    Holds first (regenerateAt table done) base (done + 1) := by
  have hMiddle : table.getD ((done + middle) % size) 0 = word first (base + done + middle) := by
    rcases Nat.lt_or_ge (done + middle) size with hInside | hWraps
    · rw [Nat.mod_eq_of_lt hInside, h.kept _ (Nat.le_add_right _ _) hInside, Nat.add_assoc]
    · have hMod : (done + middle) % size = done + middle - size := by
        simp only [size, middle] at *
        omega
      have hRenewed : done + middle - size < done := by
        simp only [size, middle] at *
        omega
      rw [hMod, h.renewed _ hRenewed,
        show base + size + (done + middle - size) = base + done + middle by omega]
  have hNext : table.getD ((done + 1) % size) 0 = word first (base + done + 1) := by
    rcases Nat.lt_or_ge (done + 1) size with hInside | hWraps
    · rw [Nat.mod_eq_of_lt hInside, h.kept _ (Nat.le_add_right _ _) hInside, Nat.add_assoc]
    · have hMod : (done + 1) % size = 0 := by
        simp only [size] at *
        omega
      have hRenewed : 0 < done := by
        simp only [size] at *
        omega
      rw [hMod, h.renewed _ hRenewed, show base + size + 0 = base + done + 1 by omega]
  have hWritten : (regenerateAt table done).getD done 0 = word first (base + size + done) := by
    have hLength : done < table.length := h.length ▸ hDone
    rw [regenerateAt, List.getD_eq_getElem?_getD, List.getElem?_set_self hLength, hMiddle, hNext,
      h.kept _ le_rfl hDone, show base + size + done = base + done + size by omega, word_add]
    rfl
  have hOthers (j : Nat) (hj : j ≠ done) : (regenerateAt table done).getD j 0 = table.getD j 0 := by
    rw [regenerateAt, List.getD_eq_getElem?_getD, List.getElem?_set_ne (Ne.symm hj),
      ← List.getD_eq_getElem?_getD]
  refine ⟨?_, fun j hj => ?_, fun j hj hSize => ?_⟩
  · rw [regenerateAt, List.length_set, h.length]
  · by_cases hLast : j = done
    · rw [hLast, hWritten]
    · rw [hOthers j hLast, h.renewed j (by omega)]
  · rw [hOthers j (by omega), h.kept j (by omega) hSize]

/-- A regenerated table holds the next words. -/
theorem Holds.regenerate (h : Holds first table base 0) :
    Holds first (regenerate table) (base + size) 0 := by
  have hRun : ∀ done, done ≤ size →
      Holds first ((List.range done).foldl regenerateAt table) base done := by
    intro done
    induction done with
    | zero => exact fun _ => h
    | succ done ih =>
        intro hDone
        rw [List.range_succ, List.foldl_append]
        exact (ih (by omega)).step hDone
  have hDone := hRun size le_rfl
  exact ⟨hDone.length, fun j hj => absurd hj (Nat.not_lt_zero j),
    fun j _ hSize => hDone.renewed j hSize⟩

end Table

section Generator

/-- A table, and the place of the word to output next. -/
structure Generator where
  table : List UInt32
  index : Nat

/-- The generator regenerates its table when it has been read. -/
def Generator.next (g : Generator) : UInt32 × Generator :=
  let ready : Generator := if size ≤ g.index then ⟨regenerate g.table, 0⟩ else g
  (temper (ready.table.getD ready.index 0), { ready with index := ready.index + 1 })

variable {first : Nat → UInt32} {g : Generator} {t : Nat}

/-- A generator that is about to give an output of the recurrence. -/
def Generator.At (g : Generator) (first : Nat → UInt32) (t : Nat) : Prop :=
  ∃ base, Holds first g.table base 0 ∧ base + g.index = size + t ∧ g.index ≤ size

theorem Generator.next_of_lt (h : g.index < size) :
    g.next = (temper (g.table.getD g.index 0), ⟨g.table, g.index + 1⟩) := by
  rw [Generator.next, if_neg (Nat.not_le.mpr h)]

theorem Generator.next_of_le (h : size ≤ g.index) :
    g.next = (temper ((regenerate g.table).getD 0 0), ⟨regenerate g.table, 0 + 1⟩) := by
  rw [Generator.next, if_pos h]

theorem Generator.at_mk {table : List UInt32} {base index : Nat} (h : Holds first table base 0)
    (hIndex : base + index = size + t) (hBound : index ≤ size) :
    (Generator.mk table index).At first t := ⟨base, h, hIndex, hBound⟩

theorem Generator.At.next (h : g.At first t) :
    g.next.1 = output first t ∧ g.next.2.At first (t + 1) := by
  obtain ⟨base, hHolds, hIndex, hBound⟩ := h
  rcases Nat.lt_or_ge g.index size with hInside | hRead
  · rw [Generator.next_of_lt hInside]
    have hNext : base + (g.index + 1) = size + (t + 1) := by
      rw [← Nat.add_assoc, hIndex, Nat.add_assoc]
    refine ⟨?_, Generator.at_mk hHolds hNext hInside⟩
    rw [hHolds.kept _ (Nat.zero_le _) hInside, hIndex]
    rfl
  · rw [Generator.next_of_le hRead]
    have hNext := hHolds.regenerate
    have hFirst : 0 < size := Nat.zero_lt_succ 623
    have hBase : base + size = size + t := by rw [← hIndex, Nat.le_antisymm hBound hRead]
    have hIndex : base + size + (0 + 1) = size + (t + 1) := by
      rw [hBase, Nat.zero_add, Nat.add_assoc]
    refine ⟨?_, Generator.at_mk hNext hIndex hFirst⟩
    rw [hNext.kept 0 le_rfl hFirst, Nat.add_zero, hBase]
    rfl

/-- A table that has been read gives the first output. -/
theorem Generator.at_zero {table : List UInt32} (hLength : table.length = size) :
    (Generator.mk table size).At (fun k => table.getD k 0) 0 :=
  ⟨0, ⟨hLength, fun j hj => absurd hj (Nat.not_lt_zero j), fun j _ hSize => by
    rw [word_of_lt (by omega), Nat.zero_add]⟩, by show 0 + size = size + 0; omega, le_rfl⟩

end Generator

section Seeding

def spread (word : UInt32) : UInt32 := word ^^^ (word >>> 30)

/-- The first table, each word from the one before. -/
def initGenrand (seed : UInt32) : List UInt32 :=
  (List.range 623).foldl
    (fun table i => table.set (i + 1) (1812433253 * spread (table.getD i 0) + UInt32.ofNat (i + 1)))
    (seed :: List.replicate 623 0)

/-- Place that a round writes: the places from one on, in turn. -/
def place (round : Nat) : Nat := 1 + round % 623

/-- The last word stands before the first place as well. -/
def carry (table : List UInt32) (i : Nat) : List UInt32 :=
  if size ≤ i + 1 then table.set 0 (table.getD (size - 1) 0) else table

/-- A word of the key, mixed into a word and the one before. -/
def mixKey (word before key : UInt32) (j : Nat) : UInt32 :=
  (word ^^^ (spread before * 1664525)) + key + UInt32.ofNat j

def mixPlace (word before : UInt32) (i : Nat) : UInt32 :=
  (word ^^^ (spread before * 1566083941)) - UInt32.ofNat i

def keyRound (key table : List UInt32) (round : Nat) : List UInt32 :=
  let i := place round
  let j := round % key.length
  carry (table.set i (mixKey (table.getD i 0) (table.getD (i - 1) 0) (key.getD j 0) j)) i

def placeRound (table : List UInt32) (round : Nat) : List UInt32 :=
  let i := place round
  carry (table.set i (mixPlace (table.getD i 0) (table.getD (i - 1) 0) i)) i

/-- The table of a key: rounds that mix the key in, then rounds that mix the places. -/
def initByArray (key : List UInt32) : List UInt32 :=
  let rounds := max size key.length
  let keyed := (List.range rounds).foldl (keyRound key) (initGenrand 19650218)
  let mixed := (List.range 623).foldl (fun table r => placeRound table (rounds + r)) keyed
  mixed.set 0 0x80000000

theorem length_foldl {f : List UInt32 → Nat → List UInt32}
    (hStep : ∀ table r, (f table r).length = table.length) (rounds : List Nat)
    (table : List UInt32) : (rounds.foldl f table).length = table.length := by
  induction rounds generalizing table with
  | nil => rfl
  | cons r rounds ih => rw [List.foldl_cons, ih, hStep]

theorem length_carry (table : List UInt32) (i : Nat) : (carry table i).length = table.length := by
  rw [carry]
  split
  · exact List.length_set
  · rfl

theorem length_keyRound (key table : List UInt32) (r : Nat) :
    (keyRound key table r).length = table.length := by
  rw [keyRound, length_carry, List.length_set]

theorem length_placeRound (table : List UInt32) (r : Nat) :
    (placeRound table r).length = table.length := by
  rw [placeRound, length_carry, List.length_set]

theorem length_initGenrand (seed : UInt32) : (initGenrand seed).length = size := by
  have hStep (table : List UInt32) (i : Nat) : (table.set (i + 1)
      (1812433253 * spread (table.getD i 0) + UInt32.ofNat (i + 1))).length = table.length :=
    List.length_set
  rw [initGenrand, length_foldl hStep, List.length_cons, List.length_replicate]
  rfl

theorem length_initByArray (key : List UInt32) : (initByArray key).length = size := by
  rw [initByArray, List.length_set, length_foldl fun table r => length_placeRound table _,
    length_foldl (length_keyRound key), length_initGenrand]

/-- Outputs of the generator that a key seeds. -/
def stream (key : List UInt32) : Nat → UInt32 := output fun k => (initByArray key).getD k 0

theorem Generator.at_stream (key : List UInt32) :
    (Generator.mk (initByArray key) size).At
      (fun k => (initByArray key).getD k 0) 0 :=
  Generator.at_zero (length_initByArray key)

end Seeding

section Passes

/-- A word that is evaluated before it is used. -/
def force {α : Type} (word : UInt32) (f : UInt32 → α) : α :=
  match word.toNat with
  | 0 => f 0
  | n + 1 => f (UInt32.ofNat (n + 1))

theorem force_eq {α : Type} (word : UInt32) (f : UInt32 → α) : force word f = f word := by
  rw [force]
  split
  · rename_i hZero
    exact congrArg f (UInt32.toNat_inj.mp hZero.symm)
  · rename_i n hWord
    show f (UInt32.ofNat n.succ) = f word
    rw [← hWord, UInt32.ofNat_toNat]

/-- Rewrite a word from itself and the one before. -/
def rewriteAt (f : Nat → UInt32 → UInt32 → UInt32) (table : List UInt32) (i : Nat) : List UInt32 :=
  table.set i (f i (table.getD i 0) (table.getD (i - 1) 0))

/-- A pass over the words from a place on, each one rewritten after the one before. -/
def pass (f : Nat → UInt32 → UInt32 → UInt32) : Nat → UInt32 → List UInt32 → List UInt32
  | _, _, [] => []
  | i, before, word :: later =>
      force (f i word before) fun value => value :: pass f (i + 1) value later

variable {f : Nat → UInt32 → UInt32 → UInt32}

theorem pass_cons (i : Nat) (before word : UInt32) (later : List UInt32) :
    pass f i before (word :: later) =
      f i word before :: pass f (i + 1) (f i word before) later := by
  rw [pass, force_eq]

theorem length_pass (later : List UInt32) (i : Nat) (before : UInt32) :
    (pass f i before later).length = later.length := by
  induction later generalizing i before with
  | nil => rfl
  | cons word later ih => rw [pass_cons, List.length_cons, List.length_cons, ih]

/-- Rewriting one place after another is a pass. -/
theorem foldl_rewriteAt (later front : List UInt32) (before : UInt32) :
    (List.range' (front.length + 1) later.length).foldl (rewriteAt f) (front ++ before :: later) =
      front ++ before :: pass f (front.length + 1) before later := by
  induction later generalizing front before with
  | nil => rfl
  | cons word later ih =>
      have hPlace : front.length ≤ front.length + 1 := Nat.le_add_right _ _
      have hHere : (front ++ before :: word :: later).getD (front.length + 1) 0 = word := by
        rw [List.getD_eq_getElem?_getD, List.getElem?_append_right hPlace,
          Nat.add_sub_cancel_left]
        rfl
      have hBefore : (front ++ before :: word :: later).getD (front.length + 1 - 1) 0 = before := by
        rw [Nat.add_sub_cancel, List.getD_eq_getElem?_getD, List.getElem?_append_right le_rfl,
          Nat.sub_self]
        rfl
      have hWritten : rewriteAt f (front ++ before :: word :: later) (front.length + 1) =
          (front ++ [before]) ++ f (front.length + 1) word before :: later := by
        rw [rewriteAt, hHere, hBefore, List.set_append_right _ _ hPlace,
          Nat.add_sub_cancel_left, List.append_assoc]
        rfl
      have hLength : (front ++ [before]).length = front.length + 1 := List.length_append
      have hRest := ih (front ++ [before]) (f (front.length + 1) word before)
      rw [hLength] at hRest
      rw [List.length_cons, List.range'_succ, List.foldl_cons, hWritten, hRest, pass_cons,
        List.append_assoc]
      rfl

theorem foldl_pass {step : List UInt32 → Nat → List UInt32} {front later : List UInt32} {n : Nat}
    (hStep : ∀ r, r < n → ∀ table, step table r = rewriteAt f table (front.length + 1 + r))
    (hLength : later.length = n) (before : UInt32) :
    (List.range n).foldl step (front ++ before :: later) =
      front ++ before :: pass f (front.length + 1) before later := by
  have hRounds : (List.range n).foldl step (front ++ before :: later) =
      (List.range n).foldl (fun table r => rewriteAt f table (front.length + 1 + r))
        (front ++ before :: later) :=
    List.foldl_ext _ _ _ fun table r hr => hStep r (List.mem_range.mp hr) table
  rw [hRounds, ← foldl_rewriteAt, hLength, List.range'_eq_map_range, List.foldl_map]

/-- A pass up to the last place, which is carried to the first. -/
theorem foldl_pass_carry {step : List UInt32 → Nat → List UInt32} {front later : List UInt32}
    {n : Nat} (hStep : ∀ r, r < n → ∀ table, step table r = rewriteAt f table (front.length + 1 + r))
    (hLast : ∀ table, step table n =
      carry (rewriteAt f table (front.length + 1 + n)) (front.length + 1 + n))
    (hLength : later.length = n + 1) (before : UInt32) :
    (List.range (n + 1)).foldl step (front ++ before :: later) =
      carry (front ++ before :: pass f (front.length + 1) before later)
        (front.length + 1 + n) := by
  have hPass := foldl_pass (fun r (_ : r < n + 1) table =>
    (rfl : rewriteAt f table (front.length + 1 + r) = _)) hLength before
  have hRounds : (List.range n).foldl step (front ++ before :: later) =
      (List.range n).foldl (fun table r => rewriteAt f table (front.length + 1 + r))
        (front ++ before :: later) :=
    List.foldl_ext _ _ _ fun table r hr => hStep r (List.mem_range.mp hr) table
  rw [List.range_succ, List.foldl_append] at hPass ⊢
  rw [hRounds, List.foldl_cons, List.foldl_nil, hLast, ← hPass]
  rfl

/-- The table of a key that is not longer than the table, in passes. -/
def seedTable (key : List UInt32) : List UInt32 :=
  let first := pass (fun i _ before => 1812433253 * spread before + UInt32.ofNat i) 1 19650218
    (List.replicate 623 0)
  let keyed := pass (fun i word before =>
    mixKey word before (key.getD ((i - 1) % key.length) 0) ((i - 1) % key.length)) 1 19650218 first
  let again := mixKey (keyed.getD 0 0) (keyed.getD 622 0) (key.getD (623 % key.length) 0)
    (623 % key.length)
  let mixed := pass (fun i word before => mixPlace word before i) 2 again keyed.tail
  0x80000000 :: mixPlace again (mixed.getD 621 0) 1 :: mixed

theorem initGenrand_eq_pass (seed : UInt32) :
    initGenrand seed = seed :: pass (fun i _ before => 1812433253 * spread before + UInt32.ofNat i)
      1 seed (List.replicate 623 0) := by
  have hStep : ∀ r, r < 623 → ∀ table : List UInt32,
      table.set (r + 1) (1812433253 * spread (table.getD r 0) + UInt32.ofNat (r + 1)) =
        rewriteAt (fun i _ before => 1812433253 * spread before + UInt32.ofNat i) table
          (([] : List UInt32).length + 1 + r) := by
    intro r _ table
    rw [List.length_nil, Nat.zero_add, Nat.add_comm 1 r]
    rfl
  exact foldl_pass hStep List.length_replicate seed

theorem carry_cons (head : UInt32) (later : List UInt32) :
    carry (head :: later) 623 = later.getD 622 0 :: later := by
  have hLast : size ≤ 623 + 1 := Nat.le_refl 624
  rw [carry, if_pos hLast]
  rfl

theorem carry_of_lt {table : List UInt32} {i : Nat} (h : i + 1 < size) : carry table i = table :=
  if_neg (Nat.not_le.mpr h)

/-- Rounds that mix the key in: a pass, and one more round at its first place. -/
theorem foldl_keyRound {key : List UInt32} (seed : UInt32) {first : List UInt32}
    (hFirst : first.length = 623) :
    let keyed := pass (fun i word before =>
      mixKey word before (key.getD ((i - 1) % key.length) 0) ((i - 1) % key.length)) 1 seed first
    (List.range 624).foldl (keyRound key) (seed :: first) =
      keyed.getD 622 0 :: mixKey (keyed.getD 0 0) (keyed.getD 622 0)
        (key.getD (623 % key.length) 0) (623 % key.length) :: keyed.tail := by
  intro keyed
  have hWritten (r : Nat) (hr : r < 623) (table : List UInt32) :
      keyRound key table r = carry (rewriteAt (fun i word before =>
        mixKey word before (key.getD ((i - 1) % key.length) 0) ((i - 1) % key.length)) table
          (([] : List UInt32).length + 1 + r)) (([] : List UInt32).length + 1 + r) := by
    have hPlace : place r = 1 + r := by rw [place, Nat.mod_eq_of_lt hr]
    rw [keyRound, hPlace, List.length_nil, Nat.zero_add, rewriteAt, Nat.add_sub_cancel_left]
  have hRounds : (List.range 623).foldl (keyRound key) (seed :: first) =
      keyed.getD 622 0 :: keyed := by
    have hStep : ∀ r, r < 622 → ∀ table, keyRound key table r = rewriteAt (fun i word before =>
        mixKey word before (key.getD ((i - 1) % key.length) 0) ((i - 1) % key.length)) table
          (([] : List UInt32).length + 1 + r) := by
      intro r hr table
      have hInside : ([] : List UInt32).length + 1 + r + 1 < size := by
        show 0 + 1 + r + 1 < 624
        omega
      rw [hWritten r (by omega), carry_of_lt hInside]
    exact (foldl_pass_carry hStep (hWritten 622 (by decide)) hFirst seed).trans
      (carry_cons seed keyed)
  have hKeyed : keyed.length = 623 := (length_pass first 1 seed).trans hFirst
  obtain ⟨word, later, hSplit⟩ := List.exists_cons_of_length_pos
    (show 0 < keyed.length by omega)
  have hPlace : place 623 = 1 := by decide
  have hCarry : ∀ table, carry table 1 = table := fun table =>
    carry_of_lt (show 1 + 1 < 624 by decide)
  rw [List.range_succ, List.foldl_append, hRounds, List.foldl_cons, List.foldl_nil, keyRound,
    hPlace, hCarry, hSplit]
  rfl

/-- Rounds that mix the places, from the second place on. -/
theorem foldl_placeRound (head before : UInt32) {later : List UInt32} (hLater : later.length = 622) :
    let mixed := pass (fun i word before => mixPlace word before i) 2 before later
    (List.range 623).foldl (fun table r => placeRound table (624 + r)) (head :: before :: later) =
      mixed.getD 621 0 :: mixPlace before (mixed.getD 621 0) 1 :: mixed := by
  intro mixed
  have hWritten (r : Nat) (hr : r < 622) (table : List UInt32) :
      placeRound table (624 + r) = carry (rewriteAt (fun i word before => mixPlace word before i)
        table ([head].length + 1 + r)) ([head].length + 1 + r) := by
    have hPlace : place (624 + r) = 2 + r := by
      rw [place]
      omega
    rw [placeRound, hPlace, List.length_singleton, rewriteAt]
  have hRounds : (List.range 622).foldl (fun table r => placeRound table (624 + r))
      (head :: before :: later) = mixed.getD 621 0 :: before :: mixed := by
    have hStep : ∀ r, r < 621 → ∀ table, placeRound table (624 + r) =
        rewriteAt (fun i word before => mixPlace word before i) table ([head].length + 1 + r) := by
      intro r hr table
      have hInside : [head].length + 1 + r + 1 < size := by
        show 1 + 1 + r + 1 < 624
        omega
      rw [hWritten r (by omega), carry_of_lt hInside]
    exact (foldl_pass_carry hStep (hWritten 621 (by decide)) hLater before).trans
      (carry_cons head (before :: mixed))
  have hPlace : place (624 + 622) = 1 := by decide
  have hCarry : ∀ table, carry table 1 = table := fun table =>
    carry_of_lt (show 1 + 1 < 624 by decide)
  rw [List.range_succ, List.foldl_append, hRounds, List.foldl_cons, List.foldl_nil, placeRound,
    hPlace, hCarry]
  rfl

theorem initByArray_eq_seedTable {key : List UInt32} (h : key.length ≤ 624) :
    initByArray key = seedTable key := by
  have hRounds : max size key.length = size := Nat.max_eq_left h
  have hFirst : (pass (fun i _ before => 1812433253 * spread before + UInt32.ofNat i) 1 19650218
      (List.replicate 623 0)).length = 623 := by
    rw [length_pass, List.length_replicate]
  rw [initByArray, hRounds, size, initGenrand_eq_pass, foldl_keyRound 19650218 hFirst,
    foldl_placeRound]
  · rfl
  · rw [List.length_tail, length_pass, hFirst]

end Passes

end Library.MersenneTwister
