import Mathlib.Data.List.Infix

/-! Frames in a text: what follows the first occurrence of a marker, markers that
end with a separator, and cuts at a separator that are told apart by counting. -/

namespace Library.Framing

variable {α : Type} [DecidableEq α]

section Marker

/-- What comes after the first occurrence of a marker. -/
def after? (marker : List α) : List α → Option (List α)
  | [] => if marker = [] then some [] else none
  | x :: rest =>
      if marker.isPrefixOf (x :: rest) then some ((x :: rest).drop marker.length)
      else after? marker rest

variable {marker xs before rest : List α}

/-- The rest comes after an occurrence, and no occurrence begins before that one. -/
theorem after?_eq_some (h : after? marker xs = some rest) :
    ∃ before, xs = before ++ marker ++ rest ∧
      ∀ before' rest', xs = before' ++ marker ++ rest' → before.length ≤ before'.length := by
  induction xs with
  | nil =>
      rw [after?] at h
      split at h
      · rename_i hEmpty
        cases h
        exact ⟨[], by rw [hEmpty]; rfl, fun _ _ _ => Nat.zero_le _⟩
      · cases h
  | cons x xs ih =>
      rw [after?] at h
      by_cases hPrefix : marker.isPrefixOf (x :: xs) = true
      · rw [if_pos hPrefix] at h
        obtain ⟨later, hLater⟩ := List.isPrefixOf_iff_prefix.mp hPrefix
        rw [← hLater, List.drop_left] at h
        cases h
        exact ⟨[], hLater.symm, fun _ _ _ => Nat.zero_le _⟩
      · rw [if_neg hPrefix] at h
        obtain ⟨before, hCut, hFirst⟩ := ih h
        refine ⟨x :: before, by rw [hCut]; rfl, fun before' rest' hOther => ?_⟩
        cases before' with
        | nil => exact absurd (List.isPrefixOf_iff_prefix.mpr ⟨rest', hOther.symm⟩) hPrefix
        | cons x' before' =>
            have hTail : xs = before' ++ marker ++ rest' := (List.cons.inj hOther).2
            exact Nat.succ_le_succ (hFirst before' rest' hTail)

theorem after?_eq_none_iff : after? marker xs = none ↔ ¬ marker <:+: xs := by
  constructor
  · intro h hInfix
    induction xs with
    | nil =>
        rw [after?, if_pos (List.infix_nil.mp hInfix)] at h
        cases h
    | cons x xs ih =>
        rw [after?] at h
        split at h
        · cases h
        · rename_i hPrefix
          rcases List.infix_cons_iff.mp hInfix with hHere | hLater
          · exact hPrefix (List.isPrefixOf_iff_prefix.mpr hHere)
          · exact ih h hLater
  · intro h
    cases hAfter : after? marker xs with
    | none => rfl
    | some rest =>
        obtain ⟨before, hCut, -⟩ := after?_eq_some hAfter
        exact absurd ⟨before, rest, hCut.symm⟩ h

end Marker

section Separator

variable {sep : α} {name xs ys us vs : List α}

/-- Two cuts of a text at a separator are one cut, or leave different numbers of
separators behind. -/
theorem cut_eq_or_count_ne (h : xs ++ sep :: us = ys ++ sep :: vs) :
    xs = ys ∧ us = vs ∨ us.count sep ≠ vs.count sep := by
  rcases List.append_eq_append_iff.mp h with ⟨as, hYs, hUs⟩ | ⟨as, hXs, hVs⟩
  · cases as with
    | nil => exact Or.inl ⟨(hYs.trans (List.append_nil xs)).symm, (List.cons.inj hUs).2⟩
    | cons a as =>
        have hCount : us.count sep = as.count sep + (vs.count sep + 1) := by
          have hBehind : us = as ++ sep :: vs := (List.cons.inj hUs).2
          rw [hBehind, List.count_append, List.count_cons_self]
        omega
  · cases as with
    | nil => exact Or.inl ⟨hXs.trans (List.append_nil ys), (List.cons.inj hVs).2.symm⟩
    | cons a as =>
        have hCount : vs.count sep = as.count sep + (us.count sep + 1) := by
          have hBehind : vs = as ++ sep :: us := (List.cons.inj hVs).2
          rw [hBehind, List.count_append, List.count_cons_self]
        omega

omit [DecidableEq α] in
/-- A marker that ends with a separator, in a text with that separator. -/
theorem marker_infix_iff (hName : sep ∉ name) :
    name ++ [sep] <:+: xs ++ sep :: us ↔
      name ++ [sep] <:+: xs ∨ name <:+ xs ∨ name ++ [sep] <:+: us := by
  constructor
  · rintro ⟨before, rest, hCut⟩
    have hCut : (before ++ name) ++ sep :: rest = xs ++ sep :: us := by
      rw [← hCut]
      simp
    rcases List.append_eq_append_iff.mp hCut with ⟨as, hXs, hRest⟩ | ⟨as, hBefore, hUs⟩
    · cases as with
      | nil => exact Or.inr (Or.inl ⟨before, (hXs.trans (List.append_nil _)).symm⟩)
      | cons a as =>
          obtain ⟨rfl, -⟩ := List.cons.inj hRest
          exact Or.inl ⟨before, as, by rw [hXs]; simp⟩
    · cases as with
      | nil => exact Or.inr (Or.inl ⟨before, hBefore.trans (List.append_nil _)⟩)
      | cons a as =>
          obtain ⟨rfl, hRest⟩ := List.cons.inj hUs
          rcases List.append_eq_append_iff.mp hBefore with ⟨bs, hLeft, hInName⟩ | ⟨bs, hLeft, hAs⟩
          · exact absurd (hInName ▸ List.mem_append_right bs List.mem_cons_self) hName
          · cases bs with
            | nil =>
                have hInName : sep :: as = name := hAs
                exact absurd (hInName ▸ List.mem_cons_self) hName
            | cons b bs =>
                have hBetween : as = bs ++ name := (List.cons.inj hAs).2
                exact Or.inr (Or.inr ⟨bs, rest, by rw [hRest, hBetween]; simp⟩)
  · rintro (⟨before, rest, rfl⟩ | ⟨before, rfl⟩ | ⟨before, rest, rfl⟩)
    · exact ⟨before, rest ++ sep :: us, by simp⟩
    · exact ⟨before, us, by simp⟩
    · exact ⟨xs ++ sep :: before, rest, by simp⟩

omit [DecidableEq α] in
/-- What lacks the separator adds no marker. -/
theorem marker_infix_append_iff (h : sep ∉ ys) :
    name ++ [sep] <:+: xs ++ ys ↔ name ++ [sep] <:+: xs := by
  refine ⟨fun hInfix => ?_, fun hInfix => hInfix.trans (List.prefix_append _ _).isInfix⟩
  obtain ⟨before, rest, hCut⟩ := hInfix
  have hCut : (before ++ name) ++ sep :: rest = xs ++ ys := by
    rw [← hCut]
    simp
  rcases List.append_eq_append_iff.mp hCut with ⟨as, hXs, hRest⟩ | ⟨as, hBefore, hYs⟩
  · cases as with
    | nil =>
        rw [List.nil_append] at hRest
        exact absurd (hRest ▸ List.mem_cons_self) h
    | cons a as =>
        obtain ⟨rfl, -⟩ := List.cons.inj hRest
        exact ⟨before, as, by rw [hXs]; simp⟩
  · rw [hYs] at h
    exact absurd (List.mem_append_right as List.mem_cons_self) h

omit [DecidableEq α] in
theorem intercalate_cons_cons (sep : α) (token token' : List α) (tokens : List (List α)) :
    [sep].intercalate (token :: token' :: tokens) =
      token ++ sep :: [sep].intercalate (token' :: tokens) := by
  rw [List.intercalate_cons_cons]
  simp

omit [DecidableEq α] in
theorem mem_intercalate {x : α} {tokens : List (List α)} (h : x ∈ [sep].intercalate tokens) :
    x = sep ∨ ∃ token ∈ tokens, x ∈ token := by
  induction tokens with
  | nil => cases h
  | cons token tokens ih =>
      cases tokens with
      | nil =>
          rw [List.intercalate_singleton] at h
          exact Or.inr ⟨token, List.mem_cons_self, h⟩
      | cons token' tokens =>
          rw [intercalate_cons_cons, List.mem_append, List.mem_cons] at h
          rcases h with hHere | rfl | hLater
          · exact Or.inr ⟨token, List.mem_cons_self, hHere⟩
          · exact Or.inl rfl
          · rcases ih hLater with hSep | ⟨other, hOther, hMem⟩
            · exact Or.inl hSep
            · exact Or.inr ⟨other, List.mem_cons_of_mem token hOther, hMem⟩

/-- Joined tokens hold a separator between each two. -/
theorem count_intercalate {tokens : List (List α)} (hTokens : ∀ token ∈ tokens, sep ∉ token)
    (hSome : tokens ≠ []) : ([sep].intercalate tokens).count sep + 1 = tokens.length := by
  induction tokens with
  | nil => exact absurd rfl hSome
  | cons token tokens ih =>
      have hToken : token.count sep = 0 :=
        List.count_eq_zero.mpr (hTokens token List.mem_cons_self)
      cases tokens with
      | nil => rw [List.intercalate_singleton, hToken, List.length_singleton]
      | cons token' tokens =>
          have hRest := ih (fun other hOther => hTokens other (List.mem_cons_of_mem token hOther))
            (List.cons_ne_nil token' tokens)
          rw [intercalate_cons_cons, List.count_append, List.count_cons_self, hToken, Nat.zero_add,
            hRest]
          rfl

omit [DecidableEq α] in
/-- A marker occurs in joined tokens where a token but the last ends with its name. -/
theorem marker_infix_intercalate_iff (hName : sep ∉ name) {tokens : List (List α)}
    (hTokens : ∀ token ∈ tokens, sep ∉ token) :
    name ++ [sep] <:+: [sep].intercalate tokens ↔ ∃ token ∈ tokens.dropLast, name <:+ token := by
  have hNone {token : List α} (h : sep ∉ token) : ¬ name ++ [sep] <:+: token := fun hInfix =>
    h (hInfix.subset (List.mem_append_right name List.mem_cons_self))
  induction tokens with
  | nil =>
      have hEmpty : ¬ name ++ [sep] <:+: [] := hNone List.not_mem_nil
      simp
  | cons token tokens ih =>
      have hToken := hNone (hTokens token List.mem_cons_self)
      cases tokens with
      | nil => simpa using hToken
      | cons token' tokens =>
          have hLater := ih fun other hOther => hTokens other (List.mem_cons_of_mem _ hOther)
          rw [intercalate_cons_cons, marker_infix_iff hName, hLater.eq,
            List.dropLast_cons_of_ne_nil (List.cons_ne_nil token' tokens), List.exists_mem_cons_iff,
            or_iff_right hToken]

theorem length_splitOn (xs : List α) : (xs.splitOn sep).length = xs.count sep + 1 := by
  induction xs with
  | nil => rfl
  | cons x xs ih =>
      rw [List.splitOn_cons_eq_if_modifyHead, List.count_cons]
      split
      · rw [List.length_cons, ih]
      · rw [List.length_modifyHead, ih, Nat.add_zero]

end Separator

end Library.Framing
