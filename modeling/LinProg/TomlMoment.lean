import LinProg.BasedDigits
import LinProg.TomlGap

/-!
# Dates and times in TOML

A moment is a date, a time of day, or both with an offset behind them. It is checked digit by
digit, and the day against the month, but its value is not kept.
-/

namespace LinProg.Toml

open Reader

/-- A number of `n` digits within a range. -/
def ranged (n least most : Nat) : Reader Nat := do
  let k := BasedDigits.value 10 (← count n Char.isDigit)
  if least ≤ k ∧ k ≤ most then return k else failure

def isLeapYear (year : Nat) : Bool := year % 4 == 0 && (year % 100 != 0 || year % 400 == 0)

def daysOfMonth (year month : Nat) : Nat :=
  if month = 2 then if isLeapYear year then 29 else 28
  else if month ∈ [4, 6, 9, 11] then 30
  else 31

def date : Reader Unit := do
  let year ← ranged 4 0 9999
  exactly '-'
  let month ← ranged 2 1 12
  exactly '-'
  let _ ← ranged 2 1 (daysOfMonth year month)

def secondFraction : Reader Unit := do
  exactly '.'
  let _ ← run Char.isDigit

def timeOfDay : Reader Unit := do
  let _ ← ranged 2 0 23
  exactly ':'
  let _ ← ranged 2 0 59
  exactly ':'
  let _ ← ranged 2 0 60
  let _ ← attempt secondFraction

def hourOffset : Reader Unit := do
  let _ ← char fun c => c == '+' || c == '-'
  let _ ← ranged 2 0 23
  exactly ':'
  let _ ← ranged 2 0 59

def offset : Reader Unit := (do let _ ← char fun c => c == 'Z' || c == 'z') <|> hourOffset

def timeOfDate : Reader Unit := do
  let _ ← char fun c => c == 'T' || c == 't' || c == ' '
  timeOfDay
  let _ ← attempt offset

def dateAndTime : Reader Unit := do
  date
  let _ ← attempt timeOfDate

def moment : Reader Unit := dateAndTime <|> timeOfDay

end LinProg.Toml
