import Pipework.Text.Split
import Pipework.Toml.Blank

set_option autoImplicit false

/-! # Dates and times

Calendar dates, times of day and offsets from universal time, together or apart. `DateTime.read?`
reads them and `DateTime.chars` writes them: years in four digits, other numbers in two, a `T`
between date and time. Fractions of a second are kept to nine digits, and zeros at their end are not
written. -/

namespace Pipework.Toml

/-! ## Types -/

/-- A day. -/
structure Date where
  year : Nat
  month : Nat
  day : Nat
deriving DecidableEq, Repr

/-- A time of day; the second may be a leap second. -/
structure Time where
  hour : Nat
  minute : Nat
  second : Nat
  /-- The digits of the fraction of a second. -/
  fraction : List Char
deriving DecidableEq, Repr

/-- An offset from universal time. -/
inductive Offset
  /-- None: the time is universal time itself. -/
  | utc
  | hours (isNegative : Bool) (hour minute : Nat)
deriving DecidableEq, Repr

/-- What is known of a point in time. -/
inductive DateTime
  | day (date : Date)
  | clock (time : Time)
  | moment (date : Date) (time : Time) (offset : Option Offset)
deriving DecidableEq, Repr

/-! ## Reading -/

/-- The number between `least` and `greatest` that the first `count` characters spell, and what
    follows them. -/
def numberIn? (count least greatest : Nat) (chars : List Char) : Option (Nat × List Char) :=
  if chars.length < count then none
  else do
    let n ← Text.digitsValue? 0 (chars.take count)
    if least ≤ n && n ≤ greatest then return (n, chars.drop count) else none

namespace Date

/-- A year of the calendar with a 29th of February. -/
def isLeapYear (year : Nat) : Bool := year % 4 == 0 && (year % 100 != 0 || year % 400 == 0)

/-- How many days a month has. -/
def daysInMonth (year month : Nat) : Nat :=
  if month = 2 then if isLeapYear year then 29 else 28
  else if month = 4 ∨ month = 6 ∨ month = 9 ∨ month = 11 then 30
  else 31

/-- The date that a text starts with, and what follows it. -/
def read? (chars : List Char) : Option (Date × List Char) := do
  let (year, rest) ← numberIn? 4 0 9999 chars
  let (month, rest) ← numberIn? 2 1 12 (← skip? '-' rest)
  let (day, rest) ← numberIn? 2 1 (daysInMonth year month) (← skip? '-' rest)
  return (⟨year, month, day⟩, rest)

end Date

namespace Time

/-- How many digits of the fraction of a second are kept. -/
def maxFraction : Nat := 9

/-- The digits of the fraction that a text starts with, and what follows it. -/
def readFraction : List Char → List Char × List Char
  | '.' :: c :: rest =>
    if c.isDigit then
      (((c :: rest).takeWhile Char.isDigit).take maxFraction, (c :: rest).dropWhile Char.isDigit)
    else ([], '.' :: c :: rest)
  | chars => ([], chars)

/-- The time that a text starts with, and what follows it. -/
def read? (chars : List Char) : Option (Time × List Char) := do
  let (hour, rest) ← numberIn? 2 0 23 chars
  let (minute, rest) ← numberIn? 2 0 59 (← skip? ':' rest)
  let (second, rest) ← numberIn? 2 0 60 (← skip? ':' rest)
  let (fraction, rest) := readFraction rest
  return (⟨hour, minute, second, fraction⟩, rest)

end Time

namespace Offset

/-- The offset that a text is. -/
def read? : List Char → Option Offset
  | [] => none
  | sign :: rest =>
    if sign == '+' || sign == '-' then do
      let (hour, rest) ← numberIn? 2 0 23 rest
      let (minute, rest) ← numberIn? 2 0 59 (← skip? ':' rest)
      if rest.isEmpty then return .hours (sign == '-') hour minute else none
    else if (sign == 'Z' || sign == 'z') && rest.isEmpty then some .utc
    else none

end Offset

namespace DateTime

/-- A character that may stand between a date and a time. -/
def isSeparator (c : Char) : Bool := c == 'T' || c == 't' || c == ' '

/-- The time and the offset, if any, that a text is. -/
def readTime? (chars : List Char) : Option (Time × Option Offset) := do
  let (time, rest) ← Time.read? chars
  if rest.isEmpty then return (time, none) else return (time, some (← Offset.read? rest))

/-- The date or time that a text is. -/
def read? (chars : List Char) : Option DateTime :=
  match Date.read? chars with
  | some (date, []) => some (.day date)
  | some (date, separator :: rest) => do
    if !isSeparator separator then none
    let (time, offset) ← readTime? rest
    return .moment date time offset
  | none => do
    match ← readTime? chars with
    | (time, none) => return .clock time
    | (_, some _) => none

end DateTime

/-! ## Writing -/

/-- `n` in at least `count` digits. -/
def paddedDigits (count n : Nat) : List Char :=
  let digits := Nat.toDigits 10 n
  List.replicate (count - digits.length) '0' ++ digits

/-- The form of a date. -/
def Date.chars (date : Date) : List Char :=
  paddedDigits 4 date.year ++ '-' :: paddedDigits 2 date.month ++ '-' :: paddedDigits 2 date.day

/-- The form of a time. -/
def Time.chars (time : Time) : List Char :=
  let fraction := (time.fraction.reverse.dropWhile (· == '0')).reverse
  paddedDigits 2 time.hour ++ ':' :: paddedDigits 2 time.minute ++ ':' :: paddedDigits 2 time.second
    ++ (if fraction.isEmpty then [] else '.' :: fraction)

/-- The form of an offset; one of no minutes is written with a plus sign. -/
def Offset.chars : Offset → List Char
  | utc => ['Z']
  | hours isNegative hour minute =>
    (if isNegative && (hour != 0 || minute != 0) then '-' else '+') ::
      (paddedDigits 2 hour ++ ':' :: paddedDigits 2 minute)

/-- The form of a date or a time. -/
def DateTime.chars : DateTime → List Char
  | day date => date.chars
  | clock time => time.chars
  | moment date time offset =>
    date.chars ++ 'T' :: time.chars ++ (offset.map Offset.chars).getD []

end Pipework.Toml
