import Mathlib.Data.List.Basic

/-! Texts as sequences of characters: replacing every occurrence of a part, and
names that are told apart by what they begin with. -/

namespace Library

section Substitution

variable {α : Type} [BEq α]

/-- Replace the occurrences of `old`, from the left and without overlaps. The
count says how much of an occurrence is still to be passed over. -/
def substitute (old new : List α) : Nat → List α → List α
  | _, [] => []
  | passed + 1, _ :: rest => substitute old new passed rest
  | 0, c :: rest =>
      if old.isPrefixOf (c :: rest) then new ++ substitute old new (old.length - 1) rest
      else c :: substitute old new 0 rest

theorem substitute_passed (old new : List α) (xs rest : List α) :
    substitute old new xs.length (xs ++ rest) = substitute old new 0 rest := by
  induction xs with
  | nil => rfl
  | cons c xs ih => exact ih

/-- An occurrence at the start is replaced, and the rest is read on. -/
theorem substitute_append [ReflBEq α] {c : α} (old new : List α) (rest : List α) :
    substitute (c :: old) new 0 (c :: old ++ rest) =
      new ++ substitute (c :: old) new 0 rest := by
  have hPrefix : (c :: old).isPrefixOf (c :: (old ++ rest)) = true := by
    induction old with
    | nil => simp [List.isPrefixOf]
    | cons d old ih => simpa [List.isPrefixOf] using ih
  rw [List.cons_append, substitute, if_pos hPrefix, List.length_cons, Nat.add_sub_cancel,
    substitute_passed]

/-- Nothing is replaced in a text that lacks a member of the occurrence. -/
theorem substitute_of_notMem [LawfulBEq α] {old new : List α} {a : α} (hMem : a ∈ old) :
    ∀ {xs : List α}, a ∉ xs → substitute old new 0 xs = xs
  | [], _ => rfl
  | c :: rest, h => by
      have hNot : ¬ old.isPrefixOf (c :: rest) = true := by
        intro hPrefix
        exact h ((List.isPrefixOf_iff_prefix.mp hPrefix).subset hMem)
      rw [substitute, if_neg hNot, substitute_of_notMem hMem (fun hRest =>
        h (List.mem_cons_of_mem _ hRest))]

/-- What comes before the first character of every occurrence is kept. -/
theorem substitute_append_of_notMem [LawfulBEq α] {c : α} (old new : List α) {xs : List α}
    (h : c ∉ xs) (rest : List α) :
    substitute (c :: old) new 0 (xs ++ rest) = xs ++ substitute (c :: old) new 0 rest := by
  induction xs with
  | nil => rfl
  | cons x xs ih =>
      have hNot : ¬ (c :: old).isPrefixOf (x :: (xs ++ rest)) = true := by
        intro hPrefix
        have hHead := (List.cons_prefix_cons.mp (List.isPrefixOf_iff_prefix.mp hPrefix)).1
        exact h (hHead ▸ List.mem_cons_self)
      rw [List.cons_append, substitute, if_neg hNot,
        ih (fun hRest => h (List.mem_cons_of_mem _ hRest)), List.cons_append]

end Substitution

/-- Every occurrence of a text replaced by another. -/
def replaceText (old new text : String) : String :=
  String.ofList (substitute old.toList new.toList 0 text.toList)

section Lines

/-- Characters at which `str.splitlines` ends a line. -/
def isLineBoundary (c : Char) : Bool :=
  [0x0a, 0x0b, 0x0c, 0x0d, 0x1c, 0x1d, 0x1e, 0x85, 0x2028, 0x2029].contains c.toNat

/-- Characters that `str.strip` removes. -/
def isSpaceText (c : Char) : Bool :=
  (9 ≤ c.toNat && c.toNat ≤ 13) || (0x1c ≤ c.toNat && c.toNat ≤ 0x20) ||
    (0x2000 ≤ c.toNat && c.toNat ≤ 0x200a) ||
    [0x85, 0xa0, 0x1680, 0x2028, 0x2029, 0x202f, 0x205f, 0x3000].contains c.toNat

/-- Lines of a text, given what the current line has already. A carriage return and
a line feed end one line together. -/
def splitLines (current : List Char) : List Char → List (List Char)
  | [] => if current = [] then [] else [current]
  | [c] => if isLineBoundary c then [current] else [current ++ [c]]
  | c :: d :: rest =>
      if c = '\r' ∧ d = '\n' then current :: splitLines [] rest
      else if isLineBoundary c then current :: splitLines [] (d :: rest)
      else splitLines (current ++ [c]) (d :: rest)

def strip (text : List Char) : List Char :=
  ((text.dropWhile isSpaceText).reverse.dropWhile isSpaceText).reverse

theorem splitLines_line {line : List Char} (h : ∀ c ∈ line, isLineBoundary c = false)
    (current rest : List Char) :
    splitLines current (line ++ '\n' :: rest) = (current ++ line) :: splitLines [] rest := by
  induction line generalizing current with
  | nil =>
      have hFeed : ¬ ('\n' = '\r') := by decide
      rw [List.append_nil, List.nil_append]
      cases rest with
      | nil => rfl
      | cons d rest =>
          rw [splitLines, if_neg fun hBoth => hFeed hBoth.1]
          rfl
  | cons c line ih =>
      have hHead := h c List.mem_cons_self
      have hReturn : c ≠ '\r' := by
        rintro rfl
        exact absurd hHead (by decide)
      have hLater := ih (fun d hd => h d (List.mem_cons_of_mem c hd)) (current ++ [c])
      rw [List.append_assoc] at hLater
      obtain ⟨d, more, hMore⟩ : ∃ d more, line ++ '\n' :: rest = d :: more := by
        cases line with
        | nil => exact ⟨_, _, rfl⟩
        | cons d line => exact ⟨_, _, rfl⟩
      rw [List.cons_append, hMore, splitLines, if_neg fun hBoth => hReturn hBoth.1, hHead,
        if_neg Bool.false_ne_true, ← hMore, hLater]
      rfl

/-- Lines without boundaries, each one ended, are the lines of their text. -/
theorem splitLines_joined {lines : List (List Char)}
    (h : ∀ line ∈ lines, ∀ c ∈ line, isLineBoundary c = false) :
    splitLines [] (lines.flatMap (· ++ ['\n'])) = lines := by
  induction lines with
  | nil => rfl
  | cons line lines ih =>
      rw [List.flatMap_cons, List.append_assoc, List.singleton_append,
        splitLines_line (h line List.mem_cons_self), List.nil_append,
        ih fun other hOther => h other (List.mem_cons_of_mem _ hOther)]

theorem strip_of_forall {text : List Char} (h : ∀ c ∈ text, isSpaceText c = false) :
    strip text = text := by
  have hKept {cs : List Char} (hCs : ∀ c ∈ cs, isSpaceText c = false) :
      cs.dropWhile isSpaceText = cs := by
    cases cs with
    | nil => rfl
    | cons c cs => rw [List.dropWhile_cons_of_neg (by simp [hCs c List.mem_cons_self])]
  rw [strip, hKept h, hKept fun c hc => h c (List.mem_reverse.mp hc), List.reverse_reverse]

theorem count_strip {c : Char} (h : isSpaceText c = false) (text : List Char) :
    (strip text).count c = text.count c := by
  have hDropped (cs : List Char) : (cs.dropWhile isSpaceText).count c = cs.count c := by
    induction cs with
    | nil => rfl
    | cons d cs ih =>
        by_cases hSpace : isSpaceText d = true
        · have hApart : d ≠ c := by
            rintro rfl
            rw [h] at hSpace
            cases hSpace
          rw [List.dropWhile_cons_of_pos hSpace, ih, List.count_cons_of_ne hApart]
        · rw [List.dropWhile_cons_of_neg hSpace]
  rw [strip, List.count_reverse, hDropped, List.count_reverse, hDropped]

end Lines

end Library
