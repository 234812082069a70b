import PlainMath.Decimal.Basic
import PlainMath.Toml.Reader

/-! Dates and times, which are kept as text. -/
namespace PlainMath.Toml
open Reader

def digitsBetween (count low high : Nat) : Reader (List Char) := fun text =>
  let digits := text.take count
  let value := Decimal.digitsValue digits
  if digits.length = count ∧ digits.all Char.isDigit ∧ low ≤ value ∧ value ≤ high then
    some (digits, text.drop count)
  else
    none

def isLeapYear (year : Nat) : Bool := year % 4 = 0 && (year % 100 ≠ 0 || year % 400 = 0)

def monthLength (year month : Nat) : Nat :=
  if month = 2 then (if isLeapYear year then 29 else 28)
  else if month ∈ [4, 6, 9, 11] then 30
  else 31

def date : Reader (List Char) := do
  let year ← digitsBetween 4 0 9999
  word "-"
  let month ← digitsBetween 2 1 12
  word "-"
  let last := monthLength (Decimal.digitsValue year) (Decimal.digitsValue month)
  let day ← digitsBetween 2 1 last
  return year ++ ['-'] ++ month ++ ['-'] ++ day

/-- A fraction of a second has nine digits at most, and no zeros at its end. -/
def fraction : Reader (List Char) := do
  word "."
  let digits ← (charsWhile Char.isDigit).filter (· ≠ [])
  let kept := ((digits.take 9).reverse.dropWhile (· = '0')).reverse
  return if kept = [] then [] else '.' :: kept

/-- The last second of a day may be an inserted one. -/
def time : Reader (List Char) := do
  let hour ← digitsBetween 2 0 23
  word ":"
  let minute ← digitsBetween 2 0 59
  word ":"
  let second ← digitsBetween 2 0 60
  let part ← optional fraction
  return hour ++ [':'] ++ minute ++ [':'] ++ second ++ part.getD []

def offset : Reader (List Char) := zulu <|> distance
where
  zulu : Reader (List Char) := do
    discard (charIf fun c => c = 'Z' || c = 'z')
    return ['Z']
  distance : Reader (List Char) := do
    let mark ← charIf fun c => c = '+' || c = '-'
    let hour ← digitsBetween 2 0 23
    word ":"
    let minute ← digitsBetween 2 0 59
    let isZero := Decimal.digitsValue (hour ++ minute) = 0
    return (if isZero then '+' else mark) :: hour ++ [':'] ++ minute

def timeOfDay : Reader (List Char) := do
  discard (charIf fun c => c = 'T' || c = 't' || c = ' ')
  let time ← time
  let offset ← optional offset
  return 'T' :: time ++ offset.getD []

def moment : Reader String := String.ofList <$> (dated <|> time)
where
  dated : Reader (List Char) := do
    let date ← date
    let time ← optional timeOfDay
    return date ++ time.getD []

end PlainMath.Toml
