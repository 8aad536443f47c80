import RuleTrade.Library.Dict
import RuleTrade.Library.Numeral

/-! Values of a canonical strategy of the first version, and their semantic types. -/

namespace RuleTrade.V1

open Library

/-- What a document holds where its model asks for nothing in particular. Reading JSON
gives no decimals and no datetimes. -/
inductive Value where
  | null
  | boolean (value : Bool)
  | integer (value : Int)
  /-- A float, as `repr` writes it. -/
  | float (repr : String)
  | decimal (value : Numeral)
  /-- A datetime, as `isoformat` writes it. -/
  | datetime (isoformat : String)
  | text (value : String)
  | list (items : List Value)
  | dict (fields : List (String × Value))
  deriving Repr

inductive ValueType where
  | boolean | integer | decimal | percentage | string | asset | group | assetSet
  | priceSeries | volumeSeries | numericSeries | assetScores | rankedAssets
  | shares | money | moneyPerShare | portfolioTargets | datetime | duration
  deriving DecidableEq, Repr

namespace ValueType

def text : ValueType → String
  | .boolean => "boolean"
  | .integer => "integer"
  | .decimal => "decimal"
  | .percentage => "percentage"
  | .string => "string"
  | .asset => "asset"
  | .group => "group"
  | .assetSet => "asset_set"
  | .priceSeries => "price_series"
  | .volumeSeries => "volume_series"
  | .numericSeries => "numeric_series"
  | .assetScores => "asset_scores"
  | .rankedAssets => "ranked_assets"
  | .shares => "shares"
  | .money => "money"
  | .moneyPerShare => "money_per_share"
  | .portfolioTargets => "portfolio_targets"
  | .datetime => "datetime"
  | .duration => "duration"

/-- `NUMERIC_TYPES`. -/
def isNumeric : ValueType → Bool
  | .integer | .decimal | .percentage | .shares | .money | .moneyPerShare => true
  | _ => false

end ValueType

section Iso

def allDigits (text : List Char) : Bool := text.all Char.isDigit

/-- A number of two digits below a bound. -/
def isBelow (bound : Nat) (text : List Char) : Bool :=
  text.length = 2 && allDigits text && Numeral.digitsValue text < bound

def isLeapYear (year : Nat) : Bool := year % 4 = 0 && (year % 100 ≠ 0 || year % 400 = 0)

def monthLength (year month : Nat) : Nat :=
  if month = 2 then (if isLeapYear year then 29 else 28)
  else if [4, 6, 9, 11].contains month then 30 else 31

/-- Year, month and day, each of its own length. -/
def isIsoDay (year month day : List Char) : Bool :=
  allDigits year && allDigits month && allDigits day &&
    let y := Numeral.digitsValue year
    let m := Numeral.digitsValue month
    let d := Numeral.digitsValue day
    1 ≤ y && 1 ≤ m && m ≤ 12 && 1 ≤ d && d ≤ monthLength y m

/-- Days after Monday of the first of January. -/
def firstWeekday (year : Nat) : Nat :=
  (365 * (year - 1) + (year - 1) / 4 - (year - 1) / 100 + (year - 1) / 400) % 7

/-- A week and a day of a year of weeks. -/
def isIsoWeek (year week day : List Char) : Bool :=
  allDigits year && allDigits week && allDigits day &&
    let y := Numeral.digitsValue year
    let w := Numeral.digitsValue week
    let long := firstWeekday y = 3 || (firstWeekday y = 2 && isLeapYear y)
    1 ≤ y && 1 ≤ w && (w ≤ 52 || (w = 53 && long)) &&
      1 ≤ Numeral.digitsValue day && Numeral.digitsValue day ≤ 7

/-- Fields of two digits after hours: at most three, all with the separator or none, and
a fraction only after seconds. -/
def isIsoClock (text : List Char) : Bool :=
  isBelow 24 (text.take 2) &&
    match text.drop 2 with
    | [] => true
    | ':' :: rest =>
        isBelow 60 (rest.take 2) &&
          match rest.drop 2 with
          | [] => true
          | ':' :: seconds => isBelow 60 (seconds.take 2) && isIsoFraction (seconds.drop 2)
          | _ => false
    | rest =>
        isBelow 60 (rest.take 2) &&
          (rest.drop 2 = [] ||
            (isBelow 60 ((rest.drop 2).take 2) && isIsoFraction ((rest.drop 2).drop 2)))
where
  isIsoFraction : List Char → Bool
    | [] => true
    | c :: digits => (c = '.' || c = ',') && digits ≠ [] && allDigits digits

def isZoneSign (c : Char) : Bool := c = '+' || c = '-'

/-- A time with or without an offset. -/
def isIsoTime (text : List Char) : Bool :=
  let clock := text.takeWhile (fun c => !isZoneSign c && c ≠ 'Z')
  isIsoClock clock &&
    match text.drop clock.length with
    | [] => true
    | 'Z' :: rest => rest = []
    | _ :: offset => isIsoClock offset

/-- A date, followed by any one character and a time or by nothing. -/
def isIsoDatetime (text : List Char) : Bool :=
  let ends (n : Nat) := text.length = n || isIsoTime (text.drop (n + 1))
  match text.drop 4 with
  | '-' :: 'W' :: _ =>
      (isIsoWeek (text.take 4) ((text.drop 6).take 2) ['1'] && ends 8) ||
        ((text.drop 8).head? = some '-' &&
          isIsoWeek (text.take 4) ((text.drop 6).take 2) ((text.drop 9).take 1) && ends 10)
  | '-' :: _ =>
      (text.drop 7).head? = some '-' &&
        isIsoDay (text.take 4) ((text.drop 5).take 2) ((text.drop 8).take 2) && ends 10
  | 'W' :: _ =>
      (isIsoWeek (text.take 4) ((text.drop 5).take 2) ['1'] && ends 7) ||
        (isIsoWeek (text.take 4) ((text.drop 5).take 2) ((text.drop 7).take 1) && ends 8)
  | _ => 8 ≤ text.length && isIsoDay (text.take 4) ((text.drop 4).take 2) ((text.drop 6).take 2) && ends 8

/-- Whether `datetime.fromisoformat` reads a text. -/
def fromIsoFormat (text : String) : Bool :=
  isIsoDatetime (replaceText "Z" "+00:00" text).toList

end Iso

/-- `Decimal(str(value))`. -/
def Value.number : Value → Option Numeral
  | .integer n => some (.ofInt n)
  | .float repr => Numeral.read repr
  | .decimal d => some d
  | .text t => Numeral.read t
  | _ => none

/-- Whether `strip` leaves anything of a text. -/
def notBlank (text : String) : Bool := strip text.toList ≠ []

/-- The branch of the numeric types. -/
def isNumber (value : Value) : Bool := (value.number.map Numeral.isFinite).getD false

def isNamedText : Value → Bool
  | .text t => notBlank t
  | _ => false

/-- `value_matches_type`. -/
def valueMatchesType (value : Value) : ValueType → Bool
  | .boolean => match value with
      | .boolean _ => true
      | _ => false
  | .integer => match value with
      | .integer _ => true
      | _ => false
  | .decimal | .percentage | .shares | .money | .moneyPerShare => isNumber value
  | .string | .asset | .group => isNamedText value
  | .assetSet => match value with
      | .list items => !items.isEmpty && items.all isNamedText
      | _ => false
  | .portfolioTargets => match value with
      | .dict fields => fields.all (fun field => notBlank field.1 && isNumber field.2)
      | _ => false
  | .datetime => match value with
      | .datetime _ => true
      | .text t => fromIsoFormat t
      | _ => false
  | .duration => match value with
      | .integer n => 0 ≤ n
      | .text t => notBlank t
      | _ => false
  | _ => false

/-- `symbol.strip().upper()`. -/
def symbolText (text : String) : String :=
  String.ofList ((strip text.toList).map Char.toUpper)

def symbolValue : Value → Value
  | .text t => .text (symbolText t)
  | other => other

def decimalValue (value : Value) : Value := (value.number.map Value.decimal).getD value

/-- Entries of a dict that is built in order: a repeated key keeps its first place. -/
def dictOf (fields : List (String × Value)) : List (String × Value) :=
  fields.foldl (fun entries field => Dict.write field.1 field.2 entries) []

/-- `normalize_typed_value`; none where the value does not match. -/
def normalizeTypedValue (value : Value) (type : ValueType) : Option Value :=
  if valueMatchesType value type then
    some (match type with
      | .decimal | .percentage | .shares | .money | .moneyPerShare => decimalValue value
      | .asset => symbolValue value
      | .assetSet => match value with
          | .list items => .list (items.map symbolValue)
          | other => other
      | .portfolioTargets => match value with
          | .dict fields =>
              .dict (dictOf (fields.map fun field => (symbolText field.1, decimalValue field.2)))
          | other => other
      | _ => value)
  else none

example : valueMatchesType (.text "0.25") .percentage = true := by decide +kernel

end RuleTrade.V1
