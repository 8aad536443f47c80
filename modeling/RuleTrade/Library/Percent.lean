import Mathlib.Data.String.Basic

/-! Percent escapes of the UTF-8 bytes of a text. -/

namespace Library.Percent

section Digits

def hexDigit (n : Nat) : Char :=
  if n < 10 then Char.ofNat (48 + n) else Char.ofNat (55 + n)

/-- Value of a hexadecimal digit of either case. -/
def hexValue (c : Char) : Option Nat :=
  if '0' ≤ c ∧ c ≤ '9' then some (c.toNat - 48)
  else if 'A' ≤ c ∧ c ≤ 'F' then some (c.toNat - 55)
  else if 'a' ≤ c ∧ c ≤ 'f' then some (c.toNat - 87)
  else none

theorem hexValue_hexDigit {n : Nat} (h : n < 16) : hexValue (hexDigit n) = some n := by
  have hAll : ∀ k : Fin 16, hexValue (hexDigit k) = some k.val := by decide
  exact hAll ⟨n, h⟩

end Digits

section Escapes

variable (plain : Char → Bool)

def escapeByte (b : UInt8) : List Char :=
  ['%', hexDigit (b.toNat / 16), hexDigit (b.toNat % 16)]

def escapeChar (c : Char) : List Char :=
  if plain c then [c] else (String.utf8EncodeChar c).flatMap escapeByte

/-- A text with every character escaped that is not plain. -/
def escape (text : String) : String :=
  String.ofList (text.toList.flatMap (escapeChar plain))

/-- Bytes of a text, with a byte for each escape. -/
def bytes : List Char → List UInt8
  | '%' :: high :: low :: rest =>
      match hexValue high, hexValue low with
      | some h, some l => UInt8.ofNat (16 * h + l) :: bytes rest
      | _, _ => String.utf8EncodeChar '%' ++ bytes (high :: low :: rest)
  | c :: rest => String.utf8EncodeChar c ++ bytes rest
  | [] => []

/-- The text whose bytes an escaped text gives. -/
def unescape (text : String) : String :=
  match (bytes text.toList).toByteArray.utf8Decode? with
  | some chars => String.ofList chars.toList
  | none => ""

variable {plain}

theorem bytes_escapeByte (b : UInt8) (rest : List Char) :
    bytes (escapeByte b ++ rest) = b :: bytes rest := by
  have hHigh : b.toNat / 16 < 16 := by
    have hByte := b.toNat_lt
    omega
  have hLow : b.toNat % 16 < 16 := Nat.mod_lt _ (by decide)
  have hWhole : 16 * (b.toNat / 16) + b.toNat % 16 = b.toNat := Nat.div_add_mod _ _
  simp only [escapeByte, List.cons_append, List.nil_append, bytes, hexValue_hexDigit hHigh,
    hexValue_hexDigit hLow, hWhole, UInt8.ofNat_toNat]

theorem bytes_flatMap_escapeByte (bs : List UInt8) (rest : List Char) :
    bytes (bs.flatMap escapeByte ++ rest) = bs ++ bytes rest := by
  induction bs with
  | nil => rfl
  | cons b bs ih =>
      rw [List.flatMap_cons, List.append_assoc, bytes_escapeByte, ih, List.cons_append]

theorem bytes_cons {c : Char} (h : c ≠ '%') (rest : List Char) :
    bytes (c :: rest) = String.utf8EncodeChar c ++ bytes rest := by
  rw [bytes]
  rintro high low rest' rfl
  exact absurd rfl h

theorem bytes_escape (hPlain : plain '%' = false) (text : List Char) :
    bytes (text.flatMap (escapeChar plain)) = text.flatMap String.utf8EncodeChar := by
  induction text with
  | nil => rfl
  | cons c text ih =>
      rw [List.flatMap_cons, List.flatMap_cons, ← ih, escapeChar]
      by_cases hKept : plain c = true
      · have hNot : c ≠ '%' := by
          rintro rfl
          rw [hPlain] at hKept
          cases hKept
        rw [if_pos hKept, List.singleton_append, bytes_cons hNot]
      · rw [if_neg hKept, bytes_flatMap_escapeByte]

/-- A text is what its escaped form is read as. -/
theorem unescape_escape (hPlain : plain '%' = false) (text : String) :
    unescape (escape plain text) = text := by
  have hBytes : (bytes (escape plain text).toList).toByteArray = text.toList.utf8Encode := by
    rw [escape, String.toList_ofList, bytes_escape hPlain]
    rfl
  rw [unescape, hBytes, List.utf8Decode?_utf8Encode]
  simp

theorem escape_eq_self {text : String} (h : ∀ c ∈ text.toList, plain c = true) :
    escape plain text = text := by
  have hChars (cs : List Char) (hAll : ∀ c ∈ cs, plain c = true) :
      cs.flatMap (escapeChar plain) = cs := by
    induction cs with
    | nil => rfl
    | cons c cs ih =>
        have hHere : plain c = true := hAll c List.mem_cons_self
        rw [List.flatMap_cons, ih fun other hOther => hAll other (List.mem_cons_of_mem c hOther),
          escapeChar, if_pos hHere, List.singleton_append]
  rw [escape, hChars _ h, String.ofList_toList]

/-- An escaped text has plain characters, percent signs and hexadecimal digits only. -/
theorem mem_escape {text : String} {c : Char} (h : c ∈ (escape plain text).toList) :
    plain c = true ∨ c = '%' ∨ ∃ n < 16, c = hexDigit n := by
  rw [escape, String.toList_ofList, List.mem_flatMap] at h
  obtain ⟨given, -, hMem⟩ := h
  rw [escapeChar] at hMem
  split at hMem
  · rename_i hKept
    rw [List.mem_singleton] at hMem
    exact Or.inl (hMem ▸ hKept)
  · obtain ⟨b, -, hMem⟩ := List.mem_flatMap.mp hMem
    have hHigh : b.toNat / 16 < 16 := by
      have hByte := b.toNat_lt
      omega
    simp only [escapeByte, List.mem_cons, List.not_mem_nil, or_false] at hMem
    rcases hMem with rfl | rfl | rfl
    · exact Or.inr (Or.inl rfl)
    · exact Or.inr (Or.inr ⟨_, hHigh, rfl⟩)
    · exact Or.inr (Or.inr ⟨_, Nat.mod_lt _ (by decide), rfl⟩)

end Escapes

end Library.Percent
