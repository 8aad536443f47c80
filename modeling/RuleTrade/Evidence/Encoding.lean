import RuleTrade.Library.Framing
import RuleTrade.Library.Percent
import RuleTrade.Library.Text

/-! Evidence lines of the generated algorithm, and their recovery from a log. -/

namespace RuleTrade

open Library

/-- Characters that no escape changes. -/
def isUnreserved (c : Char) : Bool :=
  c.isAlphanum || c = '-' || c = '.' || c = '_' || c = '~'

/-- `Uri.EscapeDataString` and `urllib.parse.unquote` as documented: the second
undoes the first, which keeps unreserved characters and escapes the others. -/
structure PercentEncoding where
  escape : String → String
  unquote : String → String
  unquote_escape : ∀ text, unquote (escape text) = text
  escape_plain : ∀ text, (∀ c ∈ text.toList, isUnreserved c = true) → escape text = text
  escape_chars : ∀ text, ∀ c ∈ (escape text).toList, isUnreserved c = true ∨ c = '%'

theorem isUnreserved_hexDigit {n : Nat} (h : n < 16) :
    isUnreserved (Percent.hexDigit n) = true := by
  have hAll : ∀ k : Fin 16, isUnreserved (Percent.hexDigit k) = true := by decide
  exact hAll ⟨n, h⟩

/-- The encoding by the UTF-8 bytes of characters. -/
def percentEncoding : PercentEncoding where
  escape := Percent.escape isUnreserved
  unquote := Percent.unescape
  unquote_escape := Percent.unescape_escape rfl
  escape_plain := fun _ h => Percent.escape_eq_self h
  escape_chars := by
    intro text c hc
    rcases Percent.mem_escape hc with hPlain | rfl | ⟨n, hDigit, rfl⟩
    · exact Or.inl hPlain
    · exact Or.inr rfl
    · exact Or.inl (isUnreserved_hexDigit hDigit)

section Emission

/-- Arguments of `EmitDecisionEvidence`. A value may be null. -/
structure EvidenceCall where
  session : String
  phase : String
  kind : String
  fields : List (String × Option String)
  deriving DecidableEq, Repr

/-- Fields of a line in order, the sequence number first. -/
def EvidenceCall.emitted (sequence : Nat) (call : EvidenceCall) : List (String × String) :=
  [("sequence", sequence.repr), ("session", call.session), ("phase", call.phase),
    ("kind", call.kind)] ++ call.fields.map (fun field => (field.1, field.2.getD ""))

variable (encoding : PercentEncoding)

def EvidenceCall.parts (sequence : Nat) (call : EvidenceCall) : List String :=
  ["sequence=" ++ sequence.repr, "session=" ++ encoding.escape call.session,
    "phase=" ++ encoding.escape call.phase, "kind=" ++ encoding.escape call.kind] ++
    call.fields.map (fun field =>
      encoding.escape field.1 ++ "=" ++ encoding.escape (field.2.getD ""))

/-- Text that `EmitDecisionEvidence` writes. -/
def EvidenceCall.text (sequence : Nat) (call : EvidenceCall) : String :=
  "RULETRADE_EVIDENCE_V2|" ++ String.intercalate "|" (call.parts encoding sequence)

/-- A line of a log: what stands before the evidence, or another line. -/
structure LogLine where
  lead : String
  call : Option EvidenceCall := none
  deriving DecidableEq, Repr

/-- Lines of a log after a number of evidence lines. -/
def logTexts : Nat → List LogLine → List String
  | _, [] => []
  | sequence, line :: rest =>
      match line.call with
      | none => line.lead :: logTexts sequence rest
      | some call =>
          (line.lead ++ call.text encoding (sequence + 1)) :: logTexts (sequence + 1) rest

def logText (lines : List LogLine) : String :=
  String.ofList ((logTexts encoding 0 lines).flatMap (fun line => line.toList ++ ['\n']))

/-- Fields of the evidence lines of a log. -/
def emittedFields : Nat → List LogLine → List (List (String × String))
  | _, [] => []
  | sequence, line :: rest =>
      match line.call with
      | none => emittedFields sequence rest
      | some call => call.emitted (sequence + 1) :: emittedFields (sequence + 1) rest

end Emission

section Collection

/-- The markers of evidence, with their versions, in the order they are looked for. -/
def evidencePrefixes : List (String × Nat) :=
  [("RULETRADE_EVIDENCE_V1|", 1), ("RULETRADE_EVIDENCE_V2|", 2)]

/-- Version and encoded fields of a line that has a marker. -/
def encodedOf (line : List Char) : Option (Nat × List Char) :=
  evidencePrefixes.findSome? fun marker =>
    (Framing.after? marker.1.toList line).map (marker.2, ·)

variable (unquote : String → String)

/-- One token as a field, after the fields before it. -/
def readField (fields : List (String × String)) (token : List Char) :
    Except String (List (String × String)) :=
  if '=' ∈ token then
    let key := unquote (String.ofList (token.takeWhile (· ≠ '=')))
    let value := unquote (String.ofList ((token.dropWhile (· ≠ '=')).drop 1))
    if key = "" ∨ key ∈ fields.map Prod.fst then
      .error "Decision evidence fields must be named and unique."
    else .ok (fields ++ [(key, value)])
  else .error "Decision evidence field is malformed."

/-- `_fields`: the tokens between separators, in order. -/
def readFields (encoded : List Char) : Except String (List (String × String)) :=
  ((strip encoded).splitOn '|').foldlM (readField unquote) []

/-- Versions and fields that a log gives to `_record`. -/
def collectFields (log : String) : Except String (List (Nat × List (String × String))) :=
  ((splitLines [] log.toList).filterMap encodedOf).mapM fun found =>
    (readFields unquote found.2).map (found.1, ·)

end Collection

end RuleTrade
