import RuleTrade.Library.CalendarOrder
import RuleTrade.Library.FixedWidth
import RuleTrade.Library.Sequence
import RuleTrade.Library.Text
import RuleTrade.Persistence.Runs

/-! Times in the database: their texts, how they are read back, and the listings
that order rows by them. -/

namespace RuleTrade

open Library

/-- A `datetime` of the UTC zone. -/
structure UtcDateTime where
  date : CalendarDate
  hour : Nat
  minute : Nat
  second : Nat
  microsecond : Nat
  isDate : date.IsDate
  year_le : date.year ≤ 9999
  hour_lt : hour < 24
  minute_lt : minute < 60
  second_lt : second < 60
  microsecond_lt : microsecond < 1000000
  deriving DecidableEq

namespace UtcDateTime

def rank (t : UtcDateTime) : CalendarDate ×ₗ ℕ ×ₗ ℕ ×ₗ ℕ ×ₗ ℕ :=
  toLex (t.date, toLex (t.hour, toLex (t.minute, toLex (t.second, t.microsecond))))

theorem rank_injective : Function.Injective rank := by
  intro a b h
  cases a
  cases b
  cases h
  rfl

/-- Times are in order of date, hour, minute, second and microsecond. -/
instance : LinearOrder UtcDateTime where
  le a b := a.rank ≤ b.rank
  le_refl a := le_refl a.rank
  le_trans _ _ _ := le_trans
  le_antisymm _ _ hab hba := rank_injective (le_antisymm hab hba)
  le_total a b := le_total a.rank b.rank
  toDecidableLE a b := inferInstanceAs (Decidable (a.rank ≤ b.rank))
  toDecidableEq := inferInstance

def isoformat (t : UtcDateTime) : String :=
  t.date.isoformat ++ "T" ++ CalendarDate.zeroPadded 2 t.hour ++ ":" ++
    CalendarDate.zeroPadded 2 t.minute ++ ":" ++ CalendarDate.zeroPadded 2 t.second ++
    (if t.microsecond = 0 then "" else "." ++ CalendarDate.zeroPadded 6 t.microsecond) ++ "+00:00"

end UtcDateTime

/-- Text that is stored for a time. -/
def timestamp (t : UtcDateTime) : String := replaceText "+00:00" "Z" t.isoformat

section Parse

/-- Digits of a width at the start of a text, with the rest. -/
def readDigits (width : Nat) (text : List Char) : Option (Nat × List Char) :=
  if (text.take width).length = width ∧ (text.take width).all Char.isDigit then
    some (Nat.ofDigitChars 10 (text.take width) 0, text.drop width)
  else none

def readChar (expected : Char) (text : List Char) : Option (List Char) :=
  match text with
  | [] => none
  | c :: rest => if c = expected then some rest else none

/-- Microseconds of a fraction, which may have any number of digits. -/
def readFraction (text : List Char) : Option (Nat × List Char) :=
  match text with
  | [] => some (0, [])
  | c :: rest =>
      if c = '.' ∨ c = ',' then
        let digits := rest.takeWhile Char.isDigit
        if digits = [] then none
        else some (Nat.ofDigitChars 10 (digits.take 6) 0 * 10 ^ (6 - (digits.take 6).length),
          rest.drop digits.length)
      else some (0, c :: rest)

instance (d : CalendarDate) : Decidable d.IsDate :=
  decidable_of_iff ((1 ≤ d.year) ∧ (1 ≤ d.month ∧ d.month ≤ 12) ∧
      (1 ≤ d.day ∧ d.day ≤ CalendarDate.daysInMonth d.year d.month))
    ⟨fun h => ⟨h.1, h.2.1, h.2.2⟩, fun h => ⟨h.year, h.month, h.day⟩⟩

/-- A time of fields that are in range. -/
def UtcDateTime.ofFields (date : CalendarDate) (hour minute second microsecond : Nat) :
    Option UtcDateTime :=
  if h : date.IsDate ∧ date.year ≤ 9999 ∧ hour < 24 ∧ minute < 60 ∧ second < 60 ∧
      microsecond < 1000000 then
    some ⟨date, hour, minute, second, microsecond, h.1, h.2.1, h.2.2.1, h.2.2.2.1, h.2.2.2.2.1,
      h.2.2.2.2.2⟩
  else none

/-- `datetime.fromisoformat` on full times of the UTC zone. -/
def parseTimestamp (text : String) : Option UtcDateTime := do
  let (year, rest) ← readDigits 4 text.toList
  let rest ← readChar '-' rest
  let (month, rest) ← readDigits 2 rest
  let rest ← readChar '-' rest
  let (day, rest) ← readDigits 2 rest
  let (hour, rest) ← readDigits 2 (rest.drop 1)
  let rest ← readChar ':' rest
  let (minute, rest) ← readDigits 2 rest
  let rest ← readChar ':' rest
  let (second, rest) ← readDigits 2 rest
  let (microsecond, zone) ← readFraction rest
  if zone = ['Z'] ∨ zone = "+00:00".toList then
    UtcDateTime.ofFields ⟨year, month, day⟩ hour minute second microsecond
  else none

end Parse

section Listings

structure RevisionSummary where
  id : String
  strategyId : String
  parentRevisionId : Option String
  sourceHash : String
  schemaVersion : String
  createdAt : UtcDateTime
  deriving DecidableEq

/-- A Strategy with its times read, where its row is readable. -/
structure ListedStrategy where
  id : String
  name : String
  createdAt : UtcDateTime
  updatedAt : UtcDateTime
  currentRevisionId : String
  deriving DecidableEq

def RevisionRow.summary (row : RevisionRow) : Option RevisionSummary := do
  let createdAt ← parseTimestamp row.createdAt
  return { id := row.id, strategyId := row.strategyId, parentRevisionId := row.parentRevisionId,
           sourceHash := row.sourceHash, schemaVersion := row.schemaVersion, createdAt := createdAt }

def StrategyRecord.listed (row : StrategyRecord) : Option ListedStrategy := do
  let createdAt ← parseTimestamp row.createdAt
  let updatedAt ← parseTimestamp row.updatedAt
  return { id := row.id, name := row.name, createdAt := createdAt, updatedAt := updatedAt,
           currentRevisionId := row.currentRevisionId }

/-- Revisions of a Strategy, the greatest stored text first. -/
def listRevisions (db : Database) (strategyId : String) : Option (List RevisionSummary) :=
  (Sequence.sortByDescending RevisionRow.createdAt (Sequence.sortByDescending RevisionRow.id
    (db.revisions.values.filter (fun row => row.strategyId = strategyId)))).mapM RevisionRow.summary

/-- Strategies that are not archived, the greatest stored text first. -/
def listStrategies (db : Database) : Option (List ListedStrategy) :=
  (Sequence.sortByDescending StrategyRecord.updatedAt (Sequence.sortBy StrategyRecord.id
    (db.strategies.values.filter (fun row => row.archivedAt.isNone)))).mapM StrategyRecord.listed

variable {Config Result : Type}

/-- Runs of a Revision that no Candidate has, with the times they were created. -/
def listRuns (db : RunDatabase Config Result) (revisionId : String) :
    Option (List (BacktestRunRecord Config Result × UtcDateTime)) :=
  (Sequence.sortByDescending BacktestRunRecord.createdAt
    (Sequence.sortByDescending BacktestRunRecord.id
      (db.runs.values.filter (fun run => run.revisionId = revisionId ∧ run.candidateId = none)))).mapM
    (fun run => (parseTimestamp run.createdAt).map (run, ·))

end Listings

end RuleTrade
