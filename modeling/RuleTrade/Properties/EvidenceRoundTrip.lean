import RuleTrade.Evidence.Encoding
import RuleTrade.Library.Logged

/-! Evidence lines in a log: which of them are recovered as they were emitted. -/

namespace RuleTrade

open Library

section Characters

/-- Characters of evidence: unreserved ones, escapes, and what joins keys and values. -/
def IsEvidenceChar (c : Char) : Prop := isUnreserved c = true ∨ c = '%' ∨ c = '='

theorem isUnreserved_range {c : Char} (h : isUnreserved c = true) :
    33 ≤ c.toNat ∧ c.toNat ≤ 126 ∧ c ≠ '|' ∧ c ≠ '=' := by
  have hAlphanum : c.isAlphanum =
      ((decide (c.val ≥ 65 ∧ c.val ≤ 90) || (decide (c.val ≥ 97) && decide (c.val ≤ 122))) ||
        (decide (c.val ≥ 48) && decide (c.val ≤ 57))) := rfl
  simp only [isUnreserved, hAlphanum, Bool.or_eq_true, Bool.and_eq_true, decide_eq_true_eq,
    ge_iff_le, UInt32.le_iff_toNat_le] at h
  change ((((((65 ≤ c.toNat ∧ c.toNat ≤ 90) ∨ (97 ≤ c.toNat ∧ c.toNat ≤ 122)) ∨
    (48 ≤ c.toNat ∧ c.toNat ≤ 57)) ∨ c = '-') ∨ c = '.') ∨ c = '_') ∨ c = '~' at h
  have hApart (d : Char) (hCode : c.toNat ≠ d.toNat) : c ≠ d := fun hSame =>
    hCode (congrArg Char.toNat hSame)
  have hBar : '|'.toNat = 124 := rfl
  have hEquals : '='.toNat = 61 := rfl
  rcases h with (((hLetterOrDigit | rfl) | rfl) | rfl) | rfl
  · exact ⟨by omega, by omega, hApart '|' (by omega), hApart '=' (by omega)⟩
  all_goals decide

theorem IsEvidenceChar.range {c : Char} (h : IsEvidenceChar c) :
    33 ≤ c.toNat ∧ c.toNat ≤ 126 ∧ c ≠ '|' := by
  rcases h with hPlain | rfl | rfl
  · exact ⟨(isUnreserved_range hPlain).1, (isUnreserved_range hPlain).2.1,
      (isUnreserved_range hPlain).2.2.1⟩
  all_goals decide

/-- Printable characters end no line and are not stripped. -/
theorem printable {c : Char} (hLow : 33 ≤ c.toNat) (hHigh : c.toNat ≤ 126) :
    isLineBoundary c = false ∧ isSpaceText c = false := by
  simp only [isLineBoundary, isSpaceText, List.contains_eq_mem, List.mem_cons, List.not_mem_nil,
    or_false, decide_eq_false_iff_not, Bool.or_eq_false_iff, Bool.and_eq_false_iff]
  omega

theorem oneLine_of_all {text : List Char} (h : text.all (fun c => !isLineBoundary c) = true) :
    ∀ c ∈ text, isLineBoundary c = false := by
  intro c hc
  have hNot := List.all_eq_true.mp h c hc
  simpa using hNot

end Characters

section Parts

variable (encoding : PercentEncoding)

/-- A field as a token. -/
def fieldToken (field : String × String) : List Char :=
  (encoding.escape field.1).toList ++ '=' :: (encoding.escape field.2).toList

/-- Joined tokens of a call. -/
def EvidenceCall.tail (sequence : Nat) (call : EvidenceCall) : List Char :=
  ['|'].intercalate ((call.emitted sequence).map (fieldToken encoding))

def oldName : List Char := "RULETRADE_EVIDENCE_V1".toList

def newName : List Char := "RULETRADE_EVIDENCE_V2".toList

variable {encoding} {sequence : Nat} {call : EvidenceCall}

theorem isUnreserved_of_repr {n : Nat} : ∀ c ∈ n.repr.toList, isUnreserved c = true := by
  intro c hc
  rw [Nat.toList_repr] at hc
  have hDigit := Nat.isDigit_of_mem_toDigits (by decide) (by decide) hc
  simp [isUnreserved, Char.isAlphanum, hDigit]

theorem parts_toList :
    (call.parts encoding sequence).map String.toList =
      (call.emitted sequence).map (fieldToken encoding) := by
  have hPlain (text : String) (h : ∀ c ∈ text.toList, isUnreserved c = true) :
      encoding.escape text = text := encoding.escape_plain text h
  have hSequence := hPlain "sequence" (List.all_eq_true.mp rfl)
  have hNumber := hPlain sequence.repr isUnreserved_of_repr
  have hSession := hPlain "session" (List.all_eq_true.mp rfl)
  have hPhase := hPlain "phase" (List.all_eq_true.mp rfl)
  have hKind := hPlain "kind" (List.all_eq_true.mp rfl)
  have hFields (fields : List (String × Option String)) :
      (fields.map fun field => encoding.escape field.1 ++ "=" ++
        encoding.escape (field.2.getD "")).map String.toList =
      (fields.map fun field => (field.1, field.2.getD "")).map (fieldToken encoding) := by
    rw [List.map_map, List.map_map]
    refine List.map_congr_left fun field _ => ?_
    simp [fieldToken]
  rw [EvidenceCall.parts, EvidenceCall.emitted, List.map_append, List.map_append, hFields]
  congr 1
  simp [fieldToken, hSequence, hNumber, hSession, hPhase, hKind]

theorem joined_toList (texts : List String) :
    (String.intercalate "|" texts).toList = ['|'].intercalate (texts.map String.toList) := by
  rw [String.toList_intercalate]
  rfl

theorem newMarker_toList : "RULETRADE_EVIDENCE_V2|".toList = newName ++ ['|'] := by
  decide

theorem text_toList :
    (call.text encoding sequence).toList = newName ++ '|' :: call.tail encoding sequence := by
  have hText : (call.text encoding sequence).toList = (newName ++ ['|']) ++
      ['|'].intercalate ((call.parts encoding sequence).map String.toList) := by
    unfold EvidenceCall.text
    rw [String.toList_append, newMarker_toList, joined_toList]
  rw [hText, parts_toList, List.append_assoc, List.singleton_append, EvidenceCall.tail]

theorem isEvidenceChar_of_mem_fieldToken {field : String × String} :
    ∀ c ∈ fieldToken encoding field, IsEvidenceChar c := by
  intro c hc
  have hEscape (text : String) (h : c ∈ (encoding.escape text).toList) : IsEvidenceChar c := by
    rcases encoding.escape_chars text c h with hPlain | rfl
    · exact Or.inl hPlain
    · exact Or.inr (Or.inl rfl)
  rcases List.mem_append.mp hc with hKey | hRest
  · exact hEscape field.1 hKey
  · rcases List.mem_cons.mp hRest with rfl | hValue
    · exact Or.inr (Or.inr rfl)
    · exact hEscape field.2 hValue

theorem bar_notMem_tokens :
    ∀ token ∈ (call.emitted sequence).map (fieldToken encoding), '|' ∉ token := by
  intro token hToken hBar
  obtain ⟨field, -, rfl⟩ := List.mem_map.mp hToken
  exact (isEvidenceChar_of_mem_fieldToken '|' hBar).range.2.2 rfl

theorem printable_of_mem_tail :
    ∀ c ∈ call.tail encoding sequence, 33 ≤ c.toNat ∧ c.toNat ≤ 126 := by
  intro c hc
  rcases Framing.mem_intercalate hc with rfl | ⟨token, hToken, hMem⟩
  · decide
  · obtain ⟨field, -, rfl⟩ := List.mem_map.mp hToken
    have hRange := (isEvidenceChar_of_mem_fieldToken c hMem).range
    exact ⟨hRange.1, hRange.2.1⟩

end Parts

/-- Values of a line after the sequence number, in order. -/
def EvidenceCall.values (call : EvidenceCall) : List String :=
  call.session :: call.phase :: call.kind :: call.fields.map (fun field => field.2.getD "")

section Reading

variable {encoding : PercentEncoding} {unquote : String → String} {sequence : Nat}
  {call : EvidenceCall}

/-- Keys of a call as its callers choose them. -/
structure EvidenceCall.Named (call : EvidenceCall) : Prop where
  nonempty : ∀ field ∈ call.fields, field.1 ≠ ""
  distinct : (call.fields.map Prod.fst).Nodup
  fresh : ∀ field ∈ call.fields, field.1 ∉ ["sequence", "session", "phase", "kind"]

theorem EvidenceCall.Named.emitted (h : call.Named) (sequence : Nat) :
    (∀ field ∈ call.emitted sequence, field.1 ≠ "") ∧
      ((call.emitted sequence).map Prod.fst).Nodup := by
  have hKeys : (call.emitted sequence).map Prod.fst =
      ["sequence", "session", "phase", "kind"] ++ call.fields.map Prod.fst := by
    rw [EvidenceCall.emitted, List.map_append, List.map_map]
    rfl
  constructor
  · intro field hField
    rcases List.mem_append.mp hField with hOwn | hGiven
    · simp only [List.mem_cons, List.not_mem_nil, or_false] at hOwn
      rcases hOwn with rfl | rfl | rfl | rfl
      · exact (by decide : "sequence" ≠ "")
      · exact (by decide : "session" ≠ "")
      · exact (by decide : "phase" ≠ "")
      · exact (by decide : "kind" ≠ "")
    · obtain ⟨given, hMem, rfl⟩ := List.mem_map.mp hGiven
      exact h.nonempty given hMem
  · rw [hKeys]
    refine List.nodup_append.mpr ⟨by decide, h.distinct, fun key hOwn key' hGiven hSame => ?_⟩
    obtain ⟨given, hMem, rfl⟩ := List.mem_map.mp hGiven
    exact h.fresh given hMem (hSame ▸ hOwn)

theorem equals_notMem_escape (text : String) : '=' ∉ (encoding.escape text).toList := by
  intro hEquals
  rcases encoding.escape_chars text '=' hEquals with hPlain | hPercent
  · exact absurd hPlain (by decide)
  · exact absurd hPercent (by decide)

/-- A token is read as the field it was written from. -/
theorem readField_fieldToken {fields : List (String × String)} {field : String × String}
    (hName : field.1 ≠ "") (hNew : field.1 ∉ fields.map Prod.fst) :
    readField encoding.unquote fields (fieldToken encoding field) = .ok (fields ++ [field]) := by
  have hBefore : ∀ c ∈ (encoding.escape field.1).toList, decide (c ≠ '=') = true := by
    intro c hc
    rw [decide_eq_true_iff]
    rintro rfl
    exact equals_notMem_escape field.1 hc
  have hKey : (fieldToken encoding field).takeWhile (· ≠ '=') =
      (encoding.escape field.1).toList := by
    rw [fieldToken, List.takeWhile_append_of_pos hBefore]
    simp
  have hValue : (fieldToken encoding field).dropWhile (· ≠ '=') =
      '=' :: (encoding.escape field.2).toList := by
    rw [fieldToken, List.dropWhile_append_of_pos hBefore]
    simp
  have hEquals : '=' ∈ fieldToken encoding field :=
    List.mem_append_right _ List.mem_cons_self
  rw [readField, if_pos hEquals]
  simp only [hKey, hValue, List.drop_succ_cons, List.drop_zero, String.ofList_toList,
    encoding.unquote_escape]
  rw [if_neg (not_or.mpr ⟨hName, hNew⟩)]

theorem foldlM_readField {written fields : List (String × String)}
    (hNames : ∀ field ∈ written, field.1 ≠ "")
    (hDistinct : ((fields ++ written).map Prod.fst).Nodup) :
    (written.map (fieldToken encoding)).foldlM (readField encoding.unquote) fields =
      .ok (fields ++ written) := by
  induction written generalizing fields with
  | nil =>
      rw [List.append_nil]
      rfl
  | cons field written ih =>
      have hNew : field.1 ∉ fields.map Prod.fst := by
        rw [List.map_append, List.map_cons] at hDistinct
        intro hOld
        exact (List.nodup_append.mp hDistinct).2.2 field.1 hOld field.1 List.mem_cons_self rfl
      have hSplit : fields ++ field :: written = (fields ++ [field]) ++ written := by
        rw [List.append_assoc, List.singleton_append]
      rw [hSplit] at hDistinct ⊢
      rw [List.map_cons, List.foldlM_cons,
        readField_fieldToken (hNames field List.mem_cons_self) hNew]
      exact ih (fun other hOther => hNames other (List.mem_cons_of_mem _ hOther)) hDistinct

/-- The joined tokens of a call are read as its fields. -/
theorem readFields_tail (h : call.Named) (sequence : Nat) :
    readFields encoding.unquote (call.tail encoding sequence) = .ok (call.emitted sequence) := by
  have hStrip : strip (call.tail encoding sequence) = call.tail encoding sequence := by
    refine strip_of_forall fun c hc => ?_
    exact (printable (printable_of_mem_tail c hc).1 (printable_of_mem_tail c hc).2).2
  have hTokens : (call.tail encoding sequence).splitOn '|' =
      (call.emitted sequence).map (fieldToken encoding) := by
    refine List.splitOn_intercalate '|' bar_notMem_tokens ?_
    rw [EvidenceCall.emitted]
    simp
  rw [readFields, hStrip, hTokens]
  exact foldlM_readField (h.emitted sequence).1 (h.emitted sequence).2

theorem length_of_foldlM_readField {tokens : List (List Char)}
    {fields result : List (String × String)}
    (h : tokens.foldlM (readField unquote) fields = .ok result) :
    result.length = fields.length + tokens.length := by
  induction tokens generalizing fields with
  | nil =>
      cases h
      rfl
  | cons token tokens ih =>
      rw [List.foldlM_cons] at h
      obtain ⟨next, hNext, hRest⟩ := except_bind_ok.mp h
      have hOne : next.length = fields.length + 1 := by
        rw [readField] at hNext
        split at hNext
        · simp only at hNext
          split at hNext
          · cases hNext
          · cases hNext
            rw [List.length_append, List.length_singleton]
        · cases hNext
      rw [ih hRest, hOne, List.length_cons]
      omega

/-- What is read has one field more than there are separators. -/
theorem length_of_readFields {encoded : List Char} {fields : List (String × String)}
    (h : readFields unquote encoded = .ok fields) : fields.length = encoded.count '|' + 1 := by
  have hLength := length_of_foldlM_readField h
  rw [Framing.length_splitOn, count_strip (by decide)] at hLength
  simpa using hLength

end Reading

section Lines

variable {encoding : PercentEncoding} {sequence : Nat} {call : EvidenceCall} {lead : List Char}

/-- A text in which no marker occurs. -/
def WithoutMarkers (text : List Char) : Prop :=
  ¬ oldName ++ ['|'] <:+: text ∧ ¬ newName ++ ['|'] <:+: text

theorem encodedOf_eq (line : List Char) :
    encodedOf line = ((Framing.after? (oldName ++ ['|']) line).map (1, ·)).or
      ((Framing.after? (newName ++ ['|']) line).map (2, ·)) := by
  have hOld : "RULETRADE_EVIDENCE_V1|".toList = oldName ++ ['|'] := by decide
  simp only [encodedOf, evidencePrefixes, List.findSome?, hOld, newMarker_toList]
  cases Framing.after? (oldName ++ ['|']) line <;>
    cases Framing.after? (newName ++ ['|']) line <;> rfl

theorem encodedOf_of_withoutMarkers {line : List Char} (h : WithoutMarkers line) :
    encodedOf line = none := by
  rw [encodedOf_eq, Framing.after?_eq_none_iff.mpr h.1, Framing.after?_eq_none_iff.mpr h.2]
  rfl

theorem bar_notMem_names : '|' ∉ oldName ∧ '|' ∉ newName := by
  decide

/-- Evidence whose marker is the first one: nothing before it and nothing in it
reads as a marker. -/
structure Marked (encoding : PercentEncoding) (sequence : Nat) (call : EvidenceCall)
    (lead : List Char) : Prop where
  lead : WithoutMarkers lead
  tail : ¬ oldName ++ ['|'] <:+: call.tail encoding sequence

/-- The old marker in a line of evidence is before the evidence or in its fields. -/
theorem oldMarker_infix_iff :
    oldName ++ ['|'] <:+: lead ++ (newName ++ '|' :: call.tail encoding sequence) ↔
      oldName ++ ['|'] <:+: lead ∨ oldName ++ ['|'] <:+: call.tail encoding sequence := by
  have hNotName : ¬ oldName <:+ lead ++ newName := by
    intro hSuffix
    have hSame : oldName = newName :=
      List.suffix_of_suffix_length_le hSuffix (List.suffix_append lead newName) (by decide)
        |>.eq_of_length (by decide)
    exact absurd hSame (by decide)
  rw [← List.append_assoc, Framing.marker_infix_iff bar_notMem_names.1,
    Framing.marker_infix_append_iff bar_notMem_names.2, or_iff_right hNotName]

/-- A line of evidence always gives something, with as many separators as the
evidence only where its marker is the first one. -/
theorem encodedOf_evidence (encoding : PercentEncoding) (sequence : Nat) (call : EvidenceCall)
    (lead : List Char) :
    ∃ version rest, encodedOf (lead ++ (newName ++ '|' :: call.tail encoding sequence)) =
        some (version, rest) ∧
      (rest.count '|' = (call.tail encoding sequence).count '|' →
        Marked encoding sequence call lead) := by
  have hLine : lead ++ (newName ++ '|' :: call.tail encoding sequence) =
      (lead ++ newName) ++ '|' :: call.tail encoding sequence := (List.append_assoc _ _ _).symm
  have hCutAt {name before rest : List Char} (hCut : lead ++ (newName ++
      '|' :: call.tail encoding sequence) = before ++ (name ++ ['|']) ++ rest)
      (hCount : rest.count '|' = (call.tail encoding sequence).count '|') :
      before ++ name = lead ++ newName := by
    have hCut : (before ++ name) ++ '|' :: rest =
        (lead ++ newName) ++ '|' :: call.tail encoding sequence := by
      rw [← hLine, hCut]
      simp
    rcases Framing.cut_eq_or_count_ne hCut with ⟨hSame, -⟩ | hApart
    · exact hSame
    · exact absurd hCount hApart
  rw [encodedOf_eq]
  cases hOld : Framing.after? (oldName ++ ['|'])
      (lead ++ (newName ++ '|' :: call.tail encoding sequence)) with
  | some rest =>
      refine ⟨1, rest, rfl, fun hCount => ?_⟩
      obtain ⟨before, hCut, -⟩ := Framing.after?_eq_some hOld
      have hNames := (List.append_inj' (hCutAt hCut hCount) (by decide)).2
      exact absurd hNames (by decide)
  | none =>
      have hNoOld := Framing.after?_eq_none_iff.mp hOld
      rw [oldMarker_infix_iff, not_or] at hNoOld
      cases hNew : Framing.after? (newName ++ ['|'])
          (lead ++ (newName ++ '|' :: call.tail encoding sequence)) with
      | none =>
          refine absurd ?_ (Framing.after?_eq_none_iff.mp hNew)
          exact ⟨lead, call.tail encoding sequence, by simp⟩
      | some rest =>
          refine ⟨2, rest, rfl, fun hCount => ⟨⟨hNoOld.1, ?_⟩, hNoOld.2⟩⟩
          obtain ⟨before, hCut, hFirst⟩ := Framing.after?_eq_some hNew
          have hLead := (List.append_inj' (hCutAt hCut hCount) rfl).1
          rintro ⟨before', rest', rfl⟩
          have hLength := hFirst before' (rest' ++ (newName ++ '|' :: call.tail encoding sequence))
            (by simp)
          rw [hLead] at hLength
          simp only [List.length_append, List.length_singleton] at hLength
          omega

theorem encodedOf_marked (h : Marked encoding sequence call lead) :
    encodedOf (lead ++ (newName ++ '|' :: call.tail encoding sequence)) =
      some (2, call.tail encoding sequence) := by
  have hNoOld : ¬ oldName ++ ['|'] <:+:
      lead ++ (newName ++ '|' :: call.tail encoding sequence) := by
    rw [oldMarker_infix_iff]
    exact not_or.mpr ⟨h.lead.1, h.tail⟩
  rw [encodedOf_eq, Framing.after?_eq_none_iff.mpr hNoOld]
  cases hNew : Framing.after? (newName ++ ['|'])
      (lead ++ (newName ++ '|' :: call.tail encoding sequence)) with
  | none =>
      refine absurd ?_ (Framing.after?_eq_none_iff.mp hNew)
      exact ⟨lead, call.tail encoding sequence, by simp⟩
  | some rest =>
      obtain ⟨before, hCut, hFirst⟩ := Framing.after?_eq_some hNew
      have hBefore : before.length ≤ lead.length :=
        hFirst lead (call.tail encoding sequence) (by simp)
      have hCut : (before ++ newName) ++ '|' :: rest =
          (lead ++ newName) ++ '|' :: call.tail encoding sequence := by
        rw [List.append_assoc lead, hCut]
        simp
      rcases List.append_eq_append_iff.mp hCut with ⟨as, hLead, hRest⟩ | ⟨as, hLonger, hRest⟩
      · cases as with
        | nil =>
            rw [(List.cons.inj hRest).2]
            rfl
        | cons a as =>
            obtain ⟨rfl, -⟩ := List.cons.inj hRest
            have hInfix : newName ++ ['|'] <:+: lead ++ newName :=
              ⟨before, as, by rw [hLead]; simp⟩
            exact absurd ((Framing.marker_infix_append_iff bar_notMem_names.2).mp hInfix) h.lead.2
      · have hNone : as = [] := by
          have hLength := congrArg List.length hLonger
          simp only [List.length_append] at hLength
          exact List.length_eq_zero_iff.mp (by omega)
        rw [hNone] at hRest
        rw [← (List.cons.inj hRest).2]
        rfl

/-- The fields hold the old marker where a value but the last ends with its name. -/
theorem oldMarker_infix_tail_iff (encoding : PercentEncoding) (sequence : Nat)
    (call : EvidenceCall) :
    oldName ++ ['|'] <:+: call.tail encoding sequence ↔
      ∃ value ∈ call.values.dropLast, oldName <:+ (encoding.escape value).toList := by
  have hEnd (field : String × String) : oldName <:+ fieldToken encoding field ↔
      oldName <:+ (encoding.escape field.2).toList := by
    refine ⟨fun hSuffix => ?_, fun hSuffix => hSuffix.trans ?_⟩
    · have hToken : '=' :: (encoding.escape field.2).toList <:+ fieldToken encoding field :=
        List.suffix_append _ _
      rcases List.suffix_or_suffix_of_suffix hSuffix hToken with hShort | hLong
      · rcases List.suffix_cons_iff.mp hShort with hSame | hValue
        · exact absurd (hSame ▸ List.mem_cons_self : '=' ∈ oldName) (by decide)
        · exact hValue
      · exact absurd (hLong.subset List.mem_cons_self : '=' ∈ oldName) (by decide)
    · exact (List.suffix_cons _ _).trans (List.suffix_append _ _)
  have hNumber : ¬ oldName <:+ (encoding.escape sequence.repr).toList := by
    rw [encoding.escape_plain _ isUnreserved_of_repr]
    intro hSuffix
    have hMem : 'R' ∈ sequence.repr.toList := hSuffix.subset (by decide)
    rw [Nat.toList_repr] at hMem
    exact absurd (Nat.isDigit_of_mem_toDigits (by decide) (by decide) hMem) (by decide)
  have hValues : (call.emitted sequence).map Prod.snd = sequence.repr :: call.values := by
    rw [EvidenceCall.emitted, List.map_append, List.map_map]
    rfl
  have hSome : call.values ≠ [] := List.cons_ne_nil _ _
  have hMapped : (∃ field ∈ (call.emitted sequence).dropLast,
      oldName <:+ (encoding.escape field.2).toList) ↔
      ∃ value ∈ ((call.emitted sequence).map Prod.snd).dropLast,
        oldName <:+ (encoding.escape value).toList := by
    rw [← List.map_dropLast]
    simp only [List.mem_map, exists_exists_and_eq_and]
  rw [EvidenceCall.tail, Framing.marker_infix_intercalate_iff bar_notMem_names.1 bar_notMem_tokens,
    ← List.map_dropLast]
  simp only [List.mem_map, exists_exists_and_eq_and, hEnd]
  rw [hMapped, hValues, List.dropLast_cons_of_ne_nil hSome, List.exists_mem_cons_iff,
    or_iff_right hNumber]

end Lines

section Logs

variable {encoding : PercentEncoding} {lines : List LogLine} {sequence : Nat}

/-- A line of a log: its text before the evidence ends no line, another line has no
marker, and the keys of evidence are named apart. -/
structure LogLine.Admissible (line : LogLine) : Prop where
  oneLine : ∀ c ∈ line.lead.toList, isLineBoundary c = false
  other : line.call = none → WithoutMarkers line.lead.toList
  named : ∀ call, line.call = some call → call.Named

/-- No marker stands before the evidence, and no value of it but the last ends with
the name of the old marker. -/
structure LogLine.Recoverable (encoding : PercentEncoding) (line : LogLine)
    (call : EvidenceCall) : Prop where
  lead : WithoutMarkers line.lead.toList
  values : ∀ value ∈ call.values.dropLast, ¬ oldName <:+ (encoding.escape value).toList

theorem marked_iff {line : LogLine} {call : EvidenceCall} :
    Marked encoding sequence call line.lead.toList ↔ line.Recoverable encoding call := by
  have hTail := oldMarker_infix_tail_iff encoding sequence call
  constructor
  · rintro ⟨hLead, hNone⟩
    exact ⟨hLead, fun value hValue hEnd => hNone (hTail.mpr ⟨value, hValue, hEnd⟩)⟩
  · rintro ⟨hLead, hNone⟩
    refine ⟨hLead, fun hInfix => ?_⟩
    obtain ⟨value, hValue, hEnd⟩ := hTail.mp hInfix
    exact hNone value hValue hEnd

/-- Fields that are found in lines of texts. -/
def collectLines (unquote : String → String) (lines : List (List Char)) :
    Except String (List (Nat × List (String × String))) :=
  (lines.filterMap encodedOf).mapM fun found => (readFields unquote found.2).map (found.1, ·)

/-- The lines give the fields that their calls have. -/
def Recovers (encoding : PercentEncoding) (sequence : Nat) (lines : List LogLine) : Prop :=
  ∃ found, collectLines encoding.unquote ((logTexts encoding sequence lines).map String.toList) =
    .ok found ∧ found.map Prod.snd = emittedFields sequence lines

theorem recovers_other {line : LogLine} (hCall : line.call = none) (h : line.Admissible) :
    Recovers encoding sequence (line :: lines) ↔ Recovers encoding sequence lines := by
  have hNone := encodedOf_of_withoutMarkers (h.other hCall)
  simp only [Recovers, logTexts, emittedFields, hCall, List.map_cons, collectLines,
    List.filterMap_cons, hNone]

theorem recovers_evidence {line : LogLine} {call : EvidenceCall} (hCall : line.call = some call)
    (h : line.Admissible) :
    Recovers encoding sequence (line :: lines) ↔
      line.Recoverable encoding call ∧ Recovers encoding (sequence + 1) lines := by
  have hText : (line.lead ++ call.text encoding (sequence + 1)).toList =
      line.lead.toList ++ (newName ++ '|' :: call.tail encoding (sequence + 1)) := by
    rw [String.toList_append, text_toList]
  have hTexts : (logTexts encoding sequence (line :: lines)).map String.toList =
      (line.lead.toList ++ (newName ++ '|' :: call.tail encoding (sequence + 1))) ::
        (logTexts encoding (sequence + 1) lines).map String.toList := by
    simp only [logTexts, hCall, List.map_cons, hText]
  have hEmitted : emittedFields sequence (line :: lines) =
      call.emitted (sequence + 1) :: emittedFields (sequence + 1) lines := by
    simp only [emittedFields, hCall]
  rw [Recovers, hTexts, hEmitted]
  constructor
  · rintro ⟨found, hFound, hFields⟩
    obtain ⟨version, rest, hEncoded, hCount⟩ :=
      encodedOf_evidence encoding (sequence + 1) call line.lead.toList
    rw [collectLines, List.filterMap_cons_some hEncoded, List.mapM_cons] at hFound
    obtain ⟨first, hFirst, hFound⟩ := except_bind_ok.mp hFound
    obtain ⟨fields, hRead, rfl⟩ := except_map_ok.mp hFirst
    obtain ⟨others, hOthers, hFound⟩ := except_bind_ok.mp hFound
    cases hFound
    obtain ⟨hOwn, hLater⟩ := List.cons.inj hFields
    have hLength := length_of_readFields hRead
    have hWritten : readFields encoding.unquote (call.tail encoding (sequence + 1)) =
        .ok (call.emitted (sequence + 1)) := readFields_tail (h.named call hCall) (sequence + 1)
    have hExpected := length_of_readFields hWritten
    have hOwn : fields = call.emitted (sequence + 1) := hOwn
    rw [hOwn] at hLength
    have hSame := Nat.succ.inj (hLength.symm.trans hExpected)
    exact ⟨marked_iff.mp (hCount hSame), others, hOthers, hLater⟩
  · rintro ⟨hRecoverable, others, hOthers, hLater⟩
    have hMarked : Marked encoding (sequence + 1) call line.lead.toList :=
      marked_iff.mpr hRecoverable
    have hEncoded := encodedOf_marked hMarked
    refine ⟨(2, call.emitted (sequence + 1)) :: others, ?_, by rw [List.map_cons, hLater]⟩
    rw [collectLines, List.filterMap_cons_some hEncoded, List.mapM_cons,
      readFields_tail (h.named call hCall)]
    rw [collectLines] at hOthers
    rw [hOthers]
    rfl

theorem recovers_iff (hLines : ∀ line ∈ lines, line.Admissible) :
    Recovers encoding sequence lines ↔
      ∀ line ∈ lines, ∀ call, line.call = some call → line.Recoverable encoding call := by
  induction lines generalizing sequence with
  | nil =>
      refine ⟨fun _ line hLine => absurd hLine List.not_mem_nil, fun _ => ⟨[], rfl, rfl⟩⟩
  | cons line lines ih =>
      have hHere := hLines line List.mem_cons_self
      have hLater (n : Nat) : Recovers encoding n lines ↔ ∀ line ∈ lines, ∀ call,
          line.call = some call → line.Recoverable encoding call :=
        ih fun other hOther => hLines other (List.mem_cons_of_mem line hOther)
      rw [List.forall_mem_cons]
      cases hCall : line.call with
      | none =>
          rw [recovers_other hCall hHere, hLater]
          exact (and_iff_right fun call hSome => by cases hSome).symm
      | some call =>
          rw [recovers_evidence hCall hHere, hLater]
          simp

/-- The lines of a log are the ones it was made of. -/
theorem splitLines_logText (hLines : ∀ line ∈ lines, line.Admissible) :
    splitLines [] (logText encoding lines).toList =
      (logTexts encoding 0 lines).map String.toList := by
  have hTexts : ∀ sequence, ∀ text ∈ (logTexts encoding sequence lines).map String.toList,
      ∀ c ∈ text, isLineBoundary c = false := by
    intro sequence
    induction lines generalizing sequence with
    | nil => exact fun text hText => absurd hText List.not_mem_nil
    | cons line lines ih =>
        have hHere := (hLines line List.mem_cons_self).oneLine
        have hLater := ih fun other hOther => hLines other (List.mem_cons_of_mem line hOther)
        intro text hText
        cases hCall : line.call with
        | none =>
            simp only [logTexts, hCall, List.map_cons, List.mem_cons] at hText
            rcases hText with rfl | hText
            · exact hHere
            · exact hLater sequence text hText
        | some call =>
            simp only [logTexts, hCall, List.map_cons, List.mem_cons] at hText
            rcases hText with rfl | hText
            · intro c hc
              rw [String.toList_append, List.mem_append, text_toList, List.mem_append,
                List.mem_cons] at hc
              rcases hc with hLead | hName | rfl | hTail
              · exact hHere c hLead
              · exact oneLine_of_all rfl c hName
              · decide
              · have hRange := printable_of_mem_tail c hTail
                exact (printable hRange.1 hRange.2).1
            · exact hLater (sequence + 1) text hText
  have hJoined := splitLines_joined (hTexts 0)
  rw [List.flatMap_map] at hJoined
  rw [logText, String.toList_ofList]
  exact hJoined

theorem recovers_log_iff (hLines : ∀ line ∈ lines, line.Admissible) :
    (∃ found, collectFields encoding.unquote (logText encoding lines) = .ok found ∧
      found.map Prod.snd = emittedFields 0 lines) ↔ Recovers encoding 0 lines := by
  rw [Recovers, collectFields, splitLines_logText hLines, collectLines]

/-- A log gives back the emitted fields exactly where every line of evidence is recoverable. -/
theorem collectFields_iff (hLines : ∀ line ∈ lines, line.Admissible) :
    (∃ found, collectFields encoding.unquote (logText encoding lines) = .ok found ∧
        found.map Prod.snd = emittedFields 0 lines) ↔
      ∀ line ∈ lines, ∀ call, line.call = some call → line.Recoverable encoding call := by
  rw [recovers_log_iff hLines, recovers_iff hLines]

end Logs

section Logged

/-- Evidence of a selection with separators in its values, after a time. -/
def separatorsLine : LogLine where
  lead := "2024-01-02 16:00:00 "
  call := some
    { session := "2024-01-02"
      phase := "evaluation"
      kind := "selection"
      fields := [("inputs", some "SPY|QQQ=1,50%\n"), ("marker", some "RULETRADE_EVIDENCE_V1|")] }

def plainLine : LogLine where
  lead := "Algorithm finished"

/-- Evidence of a strategy whose name is the one of the old marker. -/
def markerNameLine : LogLine where
  lead := ""
  call := some
    { session := "2024-01-02"
      phase := "evaluation"
      kind := "filter"
      fields := [("strategy", some "RULETRADE_EVIDENCE_V1"), ("asset", some "SPY")] }

def markerNameText : String :=
  "RULETRADE_EVIDENCE_V2|sequence=1|session=2024-01-02|phase=evaluation|kind=filter|" ++
    "strategy=RULETRADE_EVIDENCE_V1|asset=SPY"

theorem admissible_separatorsLine : separatorsLine.Admissible := by
  refine ⟨oneLine_of_all rfl, fun h => absurd h (Option.some_ne_none _), fun call hCall => ?_⟩
  cases hCall
  exact ⟨by decide, by decide, by decide⟩

theorem admissible_plainLine : plainLine.Admissible := by
  refine ⟨oneLine_of_all rfl, fun _ => ⟨?_, ?_⟩, fun call hCall => by cases hCall⟩
  all_goals decide

theorem admissible_markerNameLine : markerNameLine.Admissible := by
  refine ⟨oneLine_of_all rfl, fun h => absurd h (Option.some_ne_none _), fun call hCall => ?_⟩
  cases hCall
  exact ⟨by decide, by decide, by decide⟩

/-- A log with values full of separators, between other lines. -/
theorem collectFields_separatorsLine :
    (∃ found, collectFields percentEncoding.unquote
        (logText percentEncoding [plainLine, separatorsLine, plainLine]) = .ok found ∧
      found.map Prod.snd = emittedFields 0 [plainLine, separatorsLine, plainLine]) := by
  have hLines : ∀ line ∈ [plainLine, separatorsLine, plainLine], line.Admissible := by
    simp only [List.forall_mem_cons]
    exact ⟨admissible_plainLine, admissible_separatorsLine, admissible_plainLine,
      fun line hLine => absurd hLine List.not_mem_nil⟩
  refine (collectFields_iff hLines).mpr ?_
  have hSeparators : ∀ call, separatorsLine.call = some call →
      separatorsLine.Recoverable percentEncoding call := by
    intro call hCall
    cases hCall
    refine ⟨by constructor <;> decide, ?_⟩
    simp only [EvidenceCall.values, percentEncoding, Percent.escape, String.toList_ofList]
    decide
  have hPlain : ∀ call, plainLine.call = some call →
      plainLine.Recoverable percentEncoding call := fun call hCall => by cases hCall
  simp only [List.forall_mem_cons]
  exact ⟨hPlain, hSeparators, hPlain, fun line hLine => absurd hLine List.not_mem_nil⟩

/-- The session and all fields up to the name are lost. -/
theorem collectFields_markerNameLine :
    (∀ line ∈ [markerNameLine], line.Admissible) ∧
      collectFields percentEncoding.unquote (logText percentEncoding [markerNameLine]) =
        .ok [(1, [("asset", "SPY")])] ∧
      emittedFields 0 [markerNameLine] ≠ [[("asset", "SPY")]] := by
  have hLines : ∀ line ∈ [markerNameLine], line.Admissible := by
    intro line hLine
    rw [List.mem_singleton] at hLine
    exact hLine ▸ admissible_markerNameLine
  have hLine : (logTexts percentEncoding 0 [markerNameLine]).map String.toList =
      [markerNameText.toList] := by
    simp only [logTexts, markerNameLine, List.map_cons, List.map_nil, String.toList_append,
      text_toList, EvidenceCall.tail, EvidenceCall.emitted, List.cons_append, List.nil_append]
    unfold fieldToken
    simp only [percentEncoding, Percent.escape, String.toList_ofList]
    decide +kernel
  have hEncoded : encodedOf markerNameText.toList = some (1, "asset=SPY".toList) := by
    decide +kernel
  have hTokens : (strip "asset=SPY".toList).splitOn '|' =
      [("asset", "SPY")].map (fieldToken percentEncoding) := by
    simp only [fieldToken, percentEncoding, Percent.escape, String.toList_ofList, List.map_cons,
      List.map_nil]
    decide
  have hRead : readFields percentEncoding.unquote "asset=SPY".toList =
      .ok [("asset", "SPY")] := by
    rw [readFields, hTokens]
    exact foldlM_readField (by decide) (by decide)
  refine ⟨hLines, ?_, by decide⟩
  rw [collectFields, splitLines_logText hLines, hLine, List.filterMap_cons_some hEncoded,
    List.filterMap_nil, List.mapM_cons, hRead]
  rfl

end Logged

end RuleTrade
