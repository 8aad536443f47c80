import Mathlib.Data.String.Basic
import Mathlib.Tactic.NormNum
import RuleTrade.Library.Dict
import RuleTrade.Library.Sequence

/-! Compact JSON texts with escaped strings and sorted keys, and what they determine. -/

namespace Library.JsonText

section Escapes

/-- A hexadecimal digit in lower case. -/
def hexDigit (n : Nat) : Char :=
  if n < 10 then Char.ofNat (48 + n) else Char.ofNat (87 + n)

def hexValue (c : Char) : Nat := if c.toNat < 58 then c.toNat - 48 else c.toNat - 87

theorem hexValue_hexDigit {n : Nat} (h : n < 16) : hexValue (hexDigit n) = n := by
  have hAll : ∀ k : Fin 16, hexValue (hexDigit k) = k.val := by decide
  exact hAll ⟨n, h⟩

/-- An escape of 16 bits. -/
def unitEscape (n : Nat) : List Char :=
  ['\\', 'u', hexDigit (n / 4096 % 16), hexDigit (n / 256 % 16), hexDigit (n / 16 % 16),
    hexDigit (n % 16)]

/-- The letter of a short escape. -/
def shortEscape (c : Char) : Option Char :=
  if c = '"' then some '"'
  else if c = '\\' then some '\\'
  else if c = '\n' then some 'n'
  else if c = '\r' then some 'r'
  else if c = '\t' then some 't'
  else if c.toNat = 12 then some 'f'
  else if c.toNat = 8 then some 'b'
  else none

/-- A character in a string of ASCII characters. -/
def escapeChar (c : Char) : List Char :=
  match shortEscape c with
  | some letter => ['\\', letter]
  | none =>
      if 32 ≤ c.toNat ∧ c.toNat ≤ 126 then [c]
      else if c.toNat < 65536 then unitEscape c.toNat
      else unitEscape (55296 + (c.toNat - 65536) / 1024) ++
        unitEscape (56320 + (c.toNat - 65536) % 1024)

def quote (text : String) : List Char := '"' :: text.toList.flatMap escapeChar ++ ['"']

end Escapes

section Escaped

/-- An escape of 16 bits can be told from what follows it. -/
theorem unitEscape_append_inj {m n : Nat} (hm : m < 65536) (hn : n < 65536) {xs ys : List Char}
    (h : unitEscape m ++ xs = unitEscape n ++ ys) : m = n ∧ xs = ys := by
  simp only [unitEscape, List.cons_append, List.nil_append, List.cons.injEq, true_and] at h
  obtain ⟨h3, h2, h1, h0, hRest⟩ := h
  have hEach {a b : Nat} (ha : a < 16) (hb : b < 16) (hEq : hexDigit a = hexDigit b) : a = b := by
    rw [← hexValue_hexDigit ha, ← hexValue_hexDigit hb, hEq]
  have e3 := hEach (by omega) (by omega) h3
  have e2 := hEach (by omega) (by omega) h2
  have e1 := hEach (by omega) (by omega) h1
  have e0 := hEach (by omega) (by omega) h0
  exact ⟨by omega, hRest⟩

/-- The code point that a short escape stands for. -/
def shortCode (letter : Char) : Nat :=
  if letter = 'n' then 10
  else if letter = 'r' then 13
  else if letter = 't' then 9
  else if letter = 'f' then 12
  else if letter = 'b' then 8
  else letter.toNat

theorem shortCode_of_shortEscape {c letter : Char} (h : shortEscape c = some letter) :
    c.toNat = shortCode letter := by
  unfold shortEscape at h
  split_ifs at h with hQuote hBackslash hFeed hReturn hTab hForm hBack
  · cases h; subst hQuote; rfl
  · cases h; subst hBackslash; rfl
  · cases h; subst hFeed; rfl
  · cases h; subst hReturn; rfl
  · cases h; subst hTab; rfl
  · cases h; exact hForm
  · cases h; exact hBack

theorem shortEscape_inj {c d letter : Char} (hc : shortEscape c = some letter)
    (hd : shortEscape d = some letter) : c = d := by
  apply Char.toNat_inj.mp
  rw [shortCode_of_shortEscape hc, shortCode_of_shortEscape hd]

theorem shortEscape_ne_u {c : Char} : shortEscape c ≠ some 'u' := by
  unfold shortEscape
  split_ifs <;> simp

theorem ne_backslash_of_shortEscape_none {c : Char} (h : shortEscape c = none) :
    c ≠ '\\' ∧ c ≠ '"' := by
  constructor <;> rintro rfl <;> simp [shortEscape] at h

/-- A code point is no half of a surrogate pair. -/
theorem toNat_range (c : Char) : c.toNat < 55296 ∨ (57343 < c.toNat ∧ c.toNat < 1114112) := by
  have h := c.valid
  simp only [UInt32.isValidChar, Nat.isValidChar] at h
  exact h

/-- How an escaped character begins. -/
inductive Escaped (c : Char) : List Char → Prop where
  | plain (h : shortEscape c = none) : Escaped c [c]
  | short {letter : Char} (h : shortEscape c = some letter) : Escaped c ['\\', letter]
  | unit (h : c.toNat < 65536) : Escaped c (unitEscape c.toNat)
  | pair (h : 65536 ≤ c.toNat) :
      Escaped c (unitEscape (55296 + (c.toNat - 65536) / 1024) ++
        unitEscape (56320 + (c.toNat - 65536) % 1024))

theorem escaped_escapeChar (c : Char) : Escaped c (escapeChar c) := by
  unfold escapeChar
  split
  · rename_i letter h
    exact .short h
  · rename_i h
    split_ifs with hPlain hUnit
    · exact .plain h
    · exact .unit hUnit
    · exact .pair (by omega)

/-- An escaped character can be told from what follows it. -/
theorem escapeChar_append_inj {c d : Char} {xs ys : List Char}
    (h : escapeChar c ++ xs = escapeChar d ++ ys) : c = d ∧ xs = ys := by
  have hc := toNat_range c
  have hd := toNat_range d
  have hNat {a b : Char} (h : a.toNat = b.toNat) : a = b := Char.toNat_inj.mp h
  have hBackslash {c : Char} (hNone : shortEscape c = none) {rest rest' : List Char}
      (h : c :: rest = '\\' :: rest') : False :=
    (ne_backslash_of_shortEscape_none hNone).1 (List.cons.inj h).1
  have hLetter {c letter : Char} (hSome : shortEscape c = some letter) {n : Nat}
      {rest rest' : List Char} (h : '\\' :: letter :: rest = unitEscape n ++ rest') : False := by
    simp only [unitEscape, List.cons_append, List.cons.injEq, true_and] at h
    exact shortEscape_ne_u (h.1 ▸ hSome)
  generalize hLeft : escapeChar c = left at h
  generalize hRight : escapeChar d = right at h
  have hLeft := hLeft ▸ escaped_escapeChar c
  have hRight := hRight ▸ escaped_escapeChar d
  cases hLeft with
  | plain hNone =>
      cases hRight with
      | plain => exact List.cons.inj h
      | short => exact (hBackslash hNone h).elim
      | unit => exact (hBackslash hNone h).elim
      | pair => exact (hBackslash hNone h).elim
  | short hSome =>
      cases hRight with
      | plain hNone => exact (hBackslash hNone h.symm).elim
      | short hOther =>
          simp only [List.cons_append, List.nil_append, List.cons.injEq, true_and] at h
          exact ⟨shortEscape_inj hSome (h.1 ▸ hOther), h.2⟩
      | unit => exact (hLetter hSome h).elim
      | pair => rw [List.append_assoc] at h; exact (hLetter hSome h).elim
  | unit hSmall =>
      cases hRight with
      | plain hNone => exact (hBackslash hNone h.symm).elim
      | short hSome => exact (hLetter hSome h.symm).elim
      | unit hOther =>
          obtain ⟨hEq, hRest⟩ := unitEscape_append_inj hSmall hOther h
          exact ⟨hNat hEq, hRest⟩
      | pair hLarge =>
          rw [List.append_assoc] at h
          have hEq := (unitEscape_append_inj hSmall (by omega) h).1
          omega
  | pair hLarge =>
      cases hRight with
      | plain hNone => exact (hBackslash hNone h.symm).elim
      | short hSome => rw [List.append_assoc] at h; exact (hLetter hSome h.symm).elim
      | unit hOther =>
          rw [List.append_assoc] at h
          have hEq := (unitEscape_append_inj (by omega) hOther h).1
          omega
      | pair hOther =>
          rw [List.append_assoc, List.append_assoc] at h
          obtain ⟨hHigh, h⟩ := unitEscape_append_inj (by omega) (by omega) h
          obtain ⟨hLow, hRest⟩ := unitEscape_append_inj (by omega) (by omega) h
          exact ⟨hNat (by omega), hRest⟩

/-- No escaped character begins with a quotation mark. -/
theorem escapeChar_ne_quote {c : Char} {xs ys : List Char} : escapeChar c ++ xs ≠ '"' :: ys := by
  intro h
  generalize hLeft : escapeChar c = left at h
  have hLeft := hLeft ▸ escaped_escapeChar c
  cases hLeft with
  | plain hNone => exact (ne_backslash_of_shortEscape_none hNone).2 (List.cons.inj h).1
  | short => exact absurd (List.cons.inj h).1 (by decide)
  | unit => exact absurd (List.cons.inj h).1 (by decide)
  | pair => exact absurd (List.cons.inj h).1 (by decide)

/-- A quoted text can be told from what follows it. -/
theorem quote_append_inj {s t : String} {xs ys : List Char}
    (h : quote s ++ xs = quote t ++ ys) : s = t ∧ xs = ys := by
  have hChars : ∀ (cs ds : List Char), cs.flatMap escapeChar ++ '"' :: xs =
      ds.flatMap escapeChar ++ '"' :: ys → cs = ds ∧ xs = ys := by
    intro cs
    induction cs with
    | nil =>
        intro ds h
        cases ds with
        | nil => exact ⟨rfl, (List.cons.inj h).2⟩
        | cons d ds =>
            rw [List.flatMap_cons, List.append_assoc] at h
            exact (escapeChar_ne_quote h.symm).elim
    | cons c cs ih =>
        intro ds h
        cases ds with
        | nil =>
            rw [List.flatMap_cons, List.append_assoc] at h
            exact (escapeChar_ne_quote h).elim
        | cons d ds =>
            rw [List.flatMap_cons, List.flatMap_cons, List.append_assoc, List.append_assoc] at h
            obtain ⟨rfl, hRest⟩ := escapeChar_append_inj h
            obtain ⟨rfl, hEnd⟩ := ih ds hRest
            exact ⟨rfl, hEnd⟩
  have hInner : s.toList.flatMap escapeChar ++ '"' :: xs =
      t.toList.flatMap escapeChar ++ '"' :: ys := by
    simpa [quote] using h
  obtain ⟨hSame, hRest⟩ := hChars _ _ hInner
  exact ⟨String.toList_inj.mp hSame, hRest⟩

end Escaped

/-- A document whose numbers and constants are written out. -/
inductive Tree where
  | atom (text : String)
  | text (value : String)
  | array (items : List Tree)
  | object (fields : List (String × Tree))

section Writing

mutual

def render : Tree → List Char
  | .atom text => text.toList
  | .text value => quote value
  | .array [] => ['[', ']']
  | .array (item :: rest) => '[' :: render item ++ renderItems rest ++ [']']
  | .object [] => ['{', '}']
  | .object ((key, value) :: rest) =>
      '{' :: quote key ++ ':' :: render value ++ renderFields rest ++ ['}']

/-- The items after the first. -/
def renderItems : List Tree → List Char
  | [] => []
  | item :: rest => ',' :: render item ++ renderItems rest

/-- The fields after the first. -/
def renderFields : List (String × Tree) → List Char
  | [] => []
  | (key, value) :: rest => ',' :: quote key ++ ':' :: render value ++ renderFields rest

end

/-- Fields in the order of their keys. -/
def byKey (fields : List (String × Tree)) : List (String × Tree) :=
  fields.insertionSort fun left right => left.1 ≤ right.1

mutual

/-- Every object with its keys sorted. -/
def sorted : Tree → Tree
  | .atom text => .atom text
  | .text value => .text value
  | .array items => .array (sortedItems items)
  | .object fields => .object (byKey (sortedFields fields))

def sortedItems : List Tree → List Tree
  | [] => []
  | item :: rest => sorted item :: sortedItems rest

def sortedFields : List (String × Tree) → List (String × Tree)
  | [] => []
  | (key, value) :: rest => (key, sorted value) :: sortedFields rest

end

/-- `json.dumps(value, ensure_ascii=True, separators=(",", ":"), sort_keys=True)`. -/
def dumps (tree : Tree) : String := String.ofList (render (sorted tree))

end Writing

section Determined

/-- Characters that numbers and constants may hold. -/
def isPlain (c : Char) : Bool :=
  c ≠ ',' && c ≠ ']' && c ≠ '}' && c ≠ '"' && c ≠ '[' && c ≠ '{'

mutual

/-- A tree whose atoms can be told from what surrounds them. -/
def PlainAtoms : Tree → Prop
  | .atom text => text.toList ≠ [] ∧ text.toList.all isPlain = true
  | .text _ => True
  | .array items => PlainItems items
  | .object fields => PlainFields fields

def PlainItems : List Tree → Prop
  | [] => True
  | item :: rest => PlainAtoms item ∧ PlainItems rest

def PlainFields : List (String × Tree) → Prop
  | [] => True
  | (_, value) :: rest => PlainAtoms value ∧ PlainFields rest

end

/-- What may follow a value: nothing, or a character that no atom holds. -/
def Delimited (rest : List Char) : Prop := ∀ c, rest.head? = some c → isPlain c = false

theorem delimited_cons {c : Char} {rest : List Char} (h : isPlain c = false) :
    Delimited (c :: rest) := by
  intro d hd
  cases hd
  exact h

theorem delimited_items (items : List Tree) (rest : List Char) :
    Delimited (renderItems items ++ ']' :: rest) := by
  cases items with
  | nil => exact delimited_cons rfl
  | cons => exact delimited_cons rfl

theorem delimited_fields (fields : List (String × Tree)) (rest : List Char) :
    Delimited (renderFields fields ++ '}' :: rest) := by
  cases fields with
  | nil => exact delimited_cons rfl
  | cons => exact delimited_cons rfl

theorem plain_append_inj {s t xs ys : List Char} (hs : s.all isPlain = true)
    (ht : t.all isPlain = true) (hx : Delimited xs) (hy : Delimited ys) (h : s ++ xs = t ++ ys) :
    s = t ∧ xs = ys := by
  induction s generalizing t with
  | nil =>
      cases t with
      | nil => exact ⟨rfl, h⟩
      | cons d t =>
          have hPlain := (List.all_eq_true.mp ht) d List.mem_cons_self
          rw [List.nil_append] at h
          rw [hx d (by rw [h]; rfl)] at hPlain
          cases hPlain
  | cons c s ih =>
      cases t with
      | nil =>
          have hPlain := (List.all_eq_true.mp hs) c List.mem_cons_self
          rw [List.nil_append] at h
          rw [hy c (by rw [← h]; rfl)] at hPlain
          cases hPlain
      | cons d t =>
          obtain ⟨rfl, hTail⟩ := List.cons.inj h
          simp only [List.all_cons, Bool.and_eq_true] at hs ht
          obtain ⟨rfl, hRest⟩ := ih hs.2 ht.2 hTail
          exact ⟨rfl, hRest⟩

/-- The first character of a value. -/
def opens : Tree → Char → Prop
  | .atom _, c => isPlain c = true
  | .text _, c => c = '"'
  | .array _, c => c = '['
  | .object _, c => c = '{'

theorem opens_render {tree : Tree} (h : PlainAtoms tree) :
    ∃ c rest, render tree = c :: rest ∧ opens tree c := by
  cases tree with
  | atom text =>
      obtain ⟨hNe, hPlain⟩ := h
      cases hText : text.toList with
      | nil => exact absurd hText hNe
      | cons c rest =>
          refine ⟨c, rest, by rw [render, hText], ?_⟩
          rw [hText] at hPlain
          exact (List.all_eq_true.mp hPlain) c List.mem_cons_self
  | text value => exact ⟨_, _, rfl, rfl⟩
  | array items => cases items <;> exact ⟨_, _, rfl, rfl⟩
  | object fields =>
      cases fields with
      | nil => exact ⟨_, _, rfl, rfl⟩
      | cons field rest =>
          obtain ⟨key, value⟩ := field
          exact ⟨_, _, rfl, rfl⟩

/-- No value begins as a list of values ends. -/
theorem render_append_ne {tree : Tree} (h : PlainAtoms tree) {c : Char} (hClose : c = ']' ∨ c = '}')
    {xs ys : List Char} : render tree ++ xs ≠ c :: ys := by
  intro hEq
  obtain ⟨d, rest, hRender, hOpens⟩ := opens_render h
  rw [hRender, List.cons_append] at hEq
  obtain ⟨rfl, -⟩ := List.cons.inj hEq
  cases tree <;> rcases hClose with rfl | rfl <;> simp [opens, isPlain] at hOpens

/-- Values of two kinds begin with two characters. -/
theorem opens_disjoint {left right : Tree} {c : Char} (hLeft : opens left c)
    (hRight : opens right c) : left.ctorIdx = right.ctorIdx := by
  cases left <;> cases right <;> simp only [opens] at hLeft hRight <;> first
    | rfl
    | (subst hLeft; simp [isPlain] at hRight)
    | (subst hRight; simp [isPlain] at hLeft)

theorem sameKind_of_render {left right : Tree} (hLeft : PlainAtoms left) (hRight : PlainAtoms right)
    {xs ys : List Char} (h : render left ++ xs = render right ++ ys) :
    left.ctorIdx = right.ctorIdx := by
  obtain ⟨c, rest, hc, hOpens⟩ := opens_render hLeft
  obtain ⟨d, rest', hd, hOpens'⟩ := opens_render hRight
  rw [hc, hd, List.cons_append, List.cons_append] at h
  obtain ⟨rfl, -⟩ := List.cons.inj h
  exact opens_disjoint hOpens hOpens'

mutual

/-- A value can be told from what follows it. -/
theorem render_append_inj : ∀ (left right : Tree) {xs ys : List Char}, PlainAtoms left →
    PlainAtoms right → Delimited xs → Delimited ys → render left ++ xs = render right ++ ys →
      left = right ∧ xs = ys
  | .atom s, right, xs, ys, hLeft, hRight, hx, hy, h => by
      have hKind := sameKind_of_render hLeft hRight h
      cases right with
      | atom t =>
          obtain ⟨hText, hRest⟩ := plain_append_inj hLeft.2 hRight.2 hx hy h
          exact ⟨by rw [String.toList_inj.mp hText], hRest⟩
      | _ => cases hKind
  | .text s, right, xs, ys, hLeft, hRight, _, _, h => by
      have hKind := sameKind_of_render hLeft hRight h
      cases right with
      | text t =>
          obtain ⟨rfl, hRest⟩ := quote_append_inj h
          exact ⟨rfl, hRest⟩
      | _ => cases hKind
  | .array [], right, xs, ys, hLeft, hRight, _, _, h => by
      have hKind := sameKind_of_render hLeft hRight h
      cases right with
      | array items =>
          cases items with
          | nil =>
              simp only [render, List.cons_append, List.nil_append, List.cons.injEq, true_and] at h
              exact ⟨rfl, h⟩
          | cons item rest =>
              simp only [render, List.cons_append, List.nil_append, List.append_assoc,
                List.cons.injEq, true_and] at h
              exact (render_append_ne hRight.1 (Or.inl rfl) h.symm).elim
      | _ => cases hKind
  | .array (item :: rest), right, xs, ys, hLeft, hRight, _, _, h => by
      have hKind := sameKind_of_render hLeft hRight h
      cases right with
      | array items =>
          cases items with
          | nil =>
              simp only [render, List.cons_append, List.nil_append, List.append_assoc,
                List.cons.injEq, true_and] at h
              exact (render_append_ne hLeft.1 (Or.inl rfl) h).elim
          | cons other others =>
              simp only [render, List.cons_append, List.nil_append, List.append_assoc,
                List.cons.injEq, true_and] at h
              obtain ⟨rfl, hItems⟩ := render_append_inj item other hLeft.1 hRight.1
                (delimited_items _ _) (delimited_items _ _) h
              obtain ⟨rfl, hEnd⟩ := renderItems_append_inj rest others hLeft.2 hRight.2 hItems
              exact ⟨rfl, hEnd⟩
      | _ => cases hKind
  | .object [], right, xs, ys, hLeft, hRight, _, _, h => by
      have hKind := sameKind_of_render hLeft hRight h
      cases right with
      | object fields =>
          cases fields with
          | nil =>
              simp only [render, List.cons_append, List.nil_append, List.cons.injEq, true_and] at h
              exact ⟨rfl, h⟩
          | cons field rest =>
              simp only [render, quote, List.cons_append, List.nil_append, List.append_assoc,
                List.cons.injEq, true_and] at h
              exact absurd h.1 (by decide)
      | _ => cases hKind
  | .object ((key, value) :: rest), right, xs, ys, hLeft, hRight, _, _, h => by
      have hKind := sameKind_of_render hLeft hRight h
      cases right with
      | object fields =>
          cases fields with
          | nil =>
              simp only [render, quote, List.cons_append, List.nil_append, List.append_assoc,
                List.cons.injEq, true_and] at h
              exact absurd h.1 (by decide)
          | cons field others =>
              obtain ⟨key', other⟩ := field
              simp only [render, List.cons_append, List.nil_append, List.append_assoc,
                List.cons.injEq, true_and] at h
              obtain ⟨rfl, hValue⟩ := quote_append_inj h
              obtain ⟨rfl, hFields⟩ := render_append_inj value other hLeft.1 hRight.1
                (delimited_fields _ _) (delimited_fields _ _) (List.cons.inj hValue).2
              obtain ⟨rfl, hEnd⟩ := renderFields_append_inj rest others hLeft.2 hRight.2 hFields
              exact ⟨rfl, hEnd⟩
      | _ => cases hKind

theorem renderItems_append_inj : ∀ (left right : List Tree) {xs ys : List Char},
    PlainItems left → PlainItems right →
    renderItems left ++ ']' :: xs = renderItems right ++ ']' :: ys → left = right ∧ xs = ys
  | [], [], _, _, _, _, h => ⟨rfl, (List.cons.inj h).2⟩
  | [], _ :: _, _, _, _, _, h => absurd (List.cons.inj h).1 (by decide)
  | _ :: _, [], _, _, _, _, h => absurd (List.cons.inj h).1 (by decide)
  | item :: rest, other :: others, xs, ys, hLeft, hRight, h => by
      simp only [renderItems, List.cons_append, List.append_assoc, List.cons.injEq, true_and] at h
      obtain ⟨rfl, hItems⟩ := render_append_inj item other hLeft.1 hRight.1
        (delimited_items _ _) (delimited_items _ _) h
      obtain ⟨rfl, hEnd⟩ := renderItems_append_inj rest others hLeft.2 hRight.2 hItems
      exact ⟨rfl, hEnd⟩

theorem renderFields_append_inj : ∀ (left right : List (String × Tree)) {xs ys : List Char},
    PlainFields left → PlainFields right →
    renderFields left ++ '}' :: xs = renderFields right ++ '}' :: ys → left = right ∧ xs = ys
  | [], [], _, _, _, _, h => ⟨rfl, (List.cons.inj h).2⟩
  | [], (_, _) :: _, _, _, _, _, h => absurd (List.cons.inj h).1 (by decide)
  | (_, _) :: _, [], _, _, _, _, h => absurd (List.cons.inj h).1 (by decide)
  | (key, value) :: rest, (key', other) :: others, xs, ys, hLeft, hRight, h => by
      simp only [renderFields, List.cons_append, List.append_assoc, List.cons.injEq, true_and] at h
      obtain ⟨rfl, hValue⟩ := quote_append_inj h
      obtain ⟨rfl, hFields⟩ := render_append_inj value other hLeft.1 hRight.1
        (delimited_fields _ _) (delimited_fields _ _) (List.cons.inj hValue).2
      obtain ⟨rfl, hEnd⟩ := renderFields_append_inj rest others hLeft.2 hRight.2 hFields
      exact ⟨rfl, hEnd⟩

end

end Determined

section Printable

/-- A character that a string shows as it is or behind a backslash. -/
def isPrintable (c : Char) : Bool := 32 ≤ c.toNat && c.toNat ≤ 126

def Printable (text : List Char) : Prop := ∀ c ∈ text, isPrintable c = true

theorem printable_append {xs ys : List Char} (hx : Printable xs) (hy : Printable ys) :
    Printable (xs ++ ys) := by
  intro c hc
  rcases List.mem_append.mp hc with h | h
  · exact hx c h
  · exact hy c h

theorem printable_cons {c : Char} {xs : List Char} (hc : isPrintable c = true)
    (hx : Printable xs) : Printable (c :: xs) := by
  intro d hd
  rcases List.mem_cons.mp hd with rfl | h
  · exact hc
  · exact hx d h

theorem printable_nil : Printable [] := fun _ h => absurd h List.not_mem_nil

theorem printable_hexDigit {n : Nat} (h : n < 16) : isPrintable (hexDigit n) = true := by
  have hAll : ∀ k : Fin 16, isPrintable (hexDigit k) = true := by decide
  exact hAll ⟨n, h⟩

theorem printable_unitEscape (n : Nat) : Printable (unitEscape n) := by
  intro c hc
  simp only [unitEscape, List.mem_cons, List.not_mem_nil, or_false] at hc
  rcases hc with rfl | rfl | rfl | rfl | rfl | rfl
  · rfl
  · rfl
  all_goals exact printable_hexDigit (Nat.mod_lt _ (by decide))

theorem printable_shortEscape {c letter : Char} (h : shortEscape c = some letter) :
    isPrintable letter = true := by
  unfold shortEscape at h
  split_ifs at h <;> cases h <;> rfl

theorem printable_escapeChar (c : Char) : Printable (escapeChar c) := by
  unfold escapeChar
  split
  · rename_i letter h
    exact printable_cons rfl (printable_cons (printable_shortEscape h) printable_nil)
  · split_ifs with hPlain
    · exact printable_cons (by simp [isPrintable, hPlain.1, hPlain.2]) printable_nil
    · exact printable_unitEscape _
    · exact printable_append (printable_unitEscape _) (printable_unitEscape _)

/-- A quoted text shows no other characters. -/
theorem printable_quote (text : String) : Printable (quote text) := by
  apply printable_cons rfl
  apply printable_append
  · intro c hc
    obtain ⟨d, -, hd⟩ := List.mem_flatMap.mp hc
    exact printable_escapeChar d c hd
  · exact printable_cons rfl printable_nil

mutual

/-- A tree whose atoms are printable. -/
def PrintableAtoms : Tree → Prop
  | .atom text => Printable text.toList
  | .text _ => True
  | .array items => PrintableItems items
  | .object fields => PrintableFields fields

def PrintableItems : List Tree → Prop
  | [] => True
  | item :: rest => PrintableAtoms item ∧ PrintableItems rest

def PrintableFields : List (String × Tree) → Prop
  | [] => True
  | (_, value) :: rest => PrintableAtoms value ∧ PrintableFields rest

end

mutual

theorem printable_render : ∀ (tree : Tree), PrintableAtoms tree → Printable (render tree)
  | .atom _, h => h
  | .text value, _ => printable_quote value
  | .array [], _ => printable_cons rfl (printable_cons rfl printable_nil)
  | .array (item :: rest), h => by
      rw [render]
      apply printable_append (printable_append ?_ (printable_renderItems rest h.2))
      · exact printable_cons rfl printable_nil
      · exact printable_cons rfl (printable_render item h.1)
  | .object [], _ => printable_cons rfl (printable_cons rfl printable_nil)
  | .object ((key, value) :: rest), h => by
      rw [render]
      apply printable_append (printable_append ?_ (printable_renderFields rest h.2))
      · exact printable_cons rfl printable_nil
      · apply printable_cons rfl
        apply printable_append (printable_quote key)
        exact printable_cons rfl (printable_render value h.1)

theorem printable_renderItems : ∀ (items : List Tree), PrintableItems items →
    Printable (renderItems items)
  | [], _ => printable_nil
  | item :: rest, h => by
      rw [renderItems]
      apply printable_append ?_ (printable_renderItems rest h.2)
      exact printable_cons rfl (printable_render item h.1)

theorem printable_renderFields : ∀ (fields : List (String × Tree)), PrintableFields fields →
    Printable (renderFields fields)
  | [], _ => printable_nil
  | (key, value) :: rest, h => by
      rw [renderFields]
      apply printable_append ?_ (printable_renderFields rest h.2)
      apply printable_cons rfl
      apply printable_append (printable_quote key)
      exact printable_cons rfl (printable_render value h.1)

end

theorem printableFields_iff {fields : List (String × Tree)} :
    PrintableFields fields ↔ ∀ field ∈ fields, PrintableAtoms field.2 := by
  induction fields with
  | nil => simp [PrintableFields]
  | cons field rest ih =>
      obtain ⟨key, value⟩ := field
      simp [PrintableFields, ih]

mutual

theorem printable_sorted : ∀ tree : Tree, PrintableAtoms tree → PrintableAtoms (sorted tree)
  | .atom _, h => h
  | .text _, _ => trivial
  | .array items, h => printable_sortedItems items h
  | .object fields, h => by
      have hFields := printableFields_iff.mp (printable_sortedFields fields h)
      apply printableFields_iff.mpr
      intro field hField
      exact hFields field ((List.perm_insertionSort _ _).mem_iff.mp hField)

theorem printable_sortedItems : ∀ items : List Tree, PrintableItems items →
    PrintableItems (sortedItems items)
  | [], _ => trivial
  | item :: rest, h => ⟨printable_sorted item h.1, printable_sortedItems rest h.2⟩

theorem printable_sortedFields : ∀ fields : List (String × Tree), PrintableFields fields →
    PrintableFields (sortedFields fields)
  | [], _ => trivial
  | (_, value) :: rest, h => ⟨printable_sorted value h.1, printable_sortedFields rest h.2⟩

end

theorem printable_dumps {tree : Tree} (h : PrintableAtoms tree) :
    Printable (dumps tree).toList := by
  rw [dumps, String.toList_ofList]
  exact printable_render _ (printable_sorted tree h)

end Printable

section Literals

/-- The rest of a literal up to its last quotation mark. Escapes other than of a
quotation mark or a backslash are not read. -/
def unescape : List Char → Option (List Char)
  | [] => none
  | '"' :: rest => if rest = [] then some [] else none
  | ['\\'] => none
  | '\\' :: c :: rest =>
      if c = '"' ∨ c = '\\' then (unescape rest).map (c :: ·) else none
  | c :: rest => (unescape rest).map (c :: ·)

/-- The text that a string literal stands for. -/
def unquote : List Char → Option String
  | '"' :: rest => (unescape rest).map String.ofList
  | _ => none

theorem escapeChar_of_printable {c : Char} (h : isPrintable c = true) :
    escapeChar c = ['\\', c] ∧ (c = '"' ∨ c = '\\') ∨
      escapeChar c = [c] ∧ c ≠ '"' ∧ c ≠ '\\' := by
  simp only [isPrintable, Bool.and_eq_true, decide_eq_true_eq] at h
  unfold escapeChar
  split
  · rename_i letter hShort
    left
    unfold shortEscape at hShort
    have hNe {d : Char} (hd : d.toNat < 32) : c ≠ d := by
      rintro rfl
      omega
    split_ifs at hShort with hQuote hBackslash h1 h2 h3 h4 h5
    · cases hShort; subst hQuote; exact ⟨rfl, Or.inl rfl⟩
    · cases hShort; subst hBackslash; exact ⟨rfl, Or.inr rfl⟩
    · exact (hNe (by decide) h1).elim
    · exact (hNe (by decide) h2).elim
    · exact (hNe (by decide) h3).elim
    · omega
    · omega
  · rename_i hNone
    right
    rw [if_pos h]
    exact ⟨rfl, (ne_backslash_of_shortEscape_none hNone).symm⟩

theorem unescape_plain {c : Char} (hQuote : c ≠ '"') (hBackslash : c ≠ '\\') (rest : List Char) :
    unescape (c :: rest) = (unescape rest).map (c :: ·) := by
  rw [unescape]
  · exact hQuote
  · intro h _
    exact hBackslash h
  · intro d others h
    exact absurd h hBackslash

/-- Only quotation marks and backslashes are escaped in a printable text. -/
theorem quote_of_printable {text : String} (h : Printable text.toList)
    (hQuote : '"' ∉ text.toList) (hBackslash : '\\' ∉ text.toList) :
    quote text = '"' :: text.toList ++ ['"'] := by
  have hChars : ∀ cs : List Char, Printable cs → '"' ∉ cs → '\\' ∉ cs →
      cs.flatMap escapeChar = cs := by
    intro cs
    induction cs with
    | nil => intro _ _ _; rfl
    | cons c cs ih =>
        intro hAll hQ hB
        have hRest := ih (fun d hd => hAll d (List.mem_cons_of_mem _ hd))
          (fun hMem => hQ (List.mem_cons_of_mem _ hMem))
          (fun hMem => hB (List.mem_cons_of_mem _ hMem))
        rcases escapeChar_of_printable (hAll c List.mem_cons_self) with ⟨-, hc⟩ | ⟨hEq, -⟩
        · rcases hc with rfl | rfl
          · exact absurd List.mem_cons_self hQ
          · exact absurd List.mem_cons_self hB
        · rw [List.flatMap_cons, hEq, hRest]
          rfl
  rw [quote, hChars _ h hQuote hBackslash]

/-- A literal of a printable text stands for it. -/
theorem unquote_quote {text : String} (h : Printable text.toList) :
    unquote (quote text) = some text := by
  have hChars : ∀ cs : List Char, Printable cs →
      unescape (cs.flatMap escapeChar ++ ['"']) = some cs := by
    intro cs
    induction cs with
    | nil => intro _; rfl
    | cons c cs ih =>
        intro hAll
        have hRest := ih fun d hd => hAll d (List.mem_cons_of_mem _ hd)
        rw [List.flatMap_cons, List.append_assoc]
        rcases escapeChar_of_printable (hAll c List.mem_cons_self) with ⟨hEq, hc⟩ | ⟨hEq, hQ, hB⟩
        · rw [hEq, List.cons_append, List.cons_append, List.nil_append, unescape, if_pos hc, hRest]
          rfl
        · rw [hEq, List.cons_append, List.nil_append, unescape_plain hQ hB, hRest]
          rfl
  rw [quote, List.cons_append, unquote, hChars _ h]
  rw [Option.map_some, String.ofList_toList]

end Literals

section Reordered

theorem sortedItems_eq (items : List Tree) : sortedItems items = items.map sorted := by
  induction items with
  | nil => rfl
  | cons item rest ih => rw [sortedItems, ih, List.map_cons]

theorem sortedFields_eq (fields : List (String × Tree)) :
    sortedFields fields = fields.map fun field => (field.1, sorted field.2) := by
  induction fields with
  | nil => rfl
  | cons field rest ih =>
      obtain ⟨key, value⟩ := field
      rw [sortedFields, ih, List.map_cons]

/-- The order in which an object was written is not seen in its sorted form. -/
theorem sorted_object_of_perm {fields others : List (String × Tree)} (h : fields.Perm others)
    (hNodup : (fields.map Prod.fst).Nodup) : sorted (.object fields) = sorted (.object others) := by
  have hKeys : ((sortedFields fields).map Prod.fst).Nodup := by
    rw [sortedFields_eq, List.map_map]
    exact hNodup
  have hPerm : (sortedFields fields).Perm (sortedFields others) := by
    rw [sortedFields_eq, sortedFields_eq]
    exact h.map _
  have hSame : byKey (sortedFields fields) = byKey (sortedFields others) :=
    Sequence.sortBy_of_perm hPerm hKeys
  rw [sorted, sorted, hSame]

end Reordered

end Library.JsonText
