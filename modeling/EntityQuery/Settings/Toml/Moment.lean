/-!
# Points in time

A point in time is a day, a time of day, or both, and then perhaps with its offset from universal
time. `Moment.parse?` reads it and `Moment.text` writes it in one form: `T` between day and time,
`Z` for universal time itself, no zeros at the end of a fraction.
-/

namespace EntityQuery.Toml

/-- A day of the calendar. -/
structure Day where
  year : Nat
  month : Nat
  day : Nat
deriving DecidableEq

/-- A time of day, to the nanosecond. -/
structure TimeOfDay where
  hour : Nat
  minute : Nat
  second : Nat
  nanosecond : Nat
deriving DecidableEq

/-- How local time stands to universal time. -/
inductive Offset
  | universal
  /-- so many minutes before it -/
  | ahead (minutes : Int)
deriving DecidableEq

/-- A point in time. -/
inductive Moment
  | onDay (day : Day)
  | atTime (time : TimeOfDay)
  | both (day : Day) (time : TimeOfDay) (offset : Option Offset)
deriving DecidableEq

/-! ## Reading -/

/-- The number that exactly `count` digits at the front write, and what follows them. -/
def scanNumber (count : Nat) (cs : List Char) : Option (Nat × List Char) :=
  let digits := (cs.take count).takeWhile Char.isDigit
  if digits.length = count then some (Nat.ofDigitChars 10 digits 0, cs.drop count) else none

/-- What follows a character that has to be at the front. -/
def after? (c : Char) : List Char → Option (List Char)
  | [] => none
  | first :: rest => if first = c then some rest else none

namespace Day

/-- Whether a year has a day more than others. -/
def isLeap (year : Nat) : Bool := year % 4 == 0 && (year % 100 != 0 || year % 400 == 0)

/-- The number of days of a month. -/
def daysIn (year month : Nat) : Nat :=
  if month = 2 then (if isLeap year then 29 else 28)
  else if month = 4 ∨ month = 6 ∨ month = 9 ∨ month = 11 then 30
  else 31

/-- A day that the calendar has, and what follows it. -/
def scan (cs : List Char) : Option (Day × List Char) := do
  let (year, cs) ← scanNumber 4 cs
  let (month, cs) ← scanNumber 2 (← after? '-' cs)
  let (day, cs) ← scanNumber 2 (← after? '-' cs)
  if 1 ≤ month ∧ month ≤ 12 ∧ 1 ≤ day ∧ day ≤ daysIn year month then return (⟨year, month, day⟩, cs)
  else none

end Day

namespace TimeOfDay

/-- The nanoseconds of a fraction, if there is one; further digits do not count. -/
def scanFraction : List Char → Option (Nat × List Char)
  | '.' :: cs => match cs.takeWhile Char.isDigit with
    | [] => none
    | digits =>
      some (Nat.ofDigitChars 10 ((digits.take 9).rightpad 9 '0') 0, cs.dropWhile Char.isDigit)
  | cs => some (0, cs)

/-- A time of day, and what follows it. The hour after the last is one, and so is the second that is
put in at times. -/
def scan (cs : List Char) : Option (TimeOfDay × List Char) := do
  let (hour, cs) ← scanNumber 2 cs
  let (minute, cs) ← scanNumber 2 (← after? ':' cs)
  let (second, cs) ← scanNumber 2 (← after? ':' cs)
  let (nanosecond, cs) ← scanFraction cs
  if hour ≤ 24 ∧ minute ≤ 59 ∧ second ≤ 60 then return (⟨hour, minute, second, nanosecond⟩, cs)
  else none

end TimeOfDay

namespace Offset

/-- An offset of at most a day in hours and minutes, and what follows it. -/
def scanMinutes (sign : Int) (cs : List Char) : Option (Offset × List Char) := do
  let (hours, cs) ← scanNumber 2 cs
  let (minutes, cs) ← scanNumber 2 (← after? ':' cs)
  let total := hours * 60 + minutes
  if total ≤ 24 * 60 then return (ahead (sign * total), cs) else none

/-- An offset, if there is one, and what follows it. -/
def scan : List Char → Option (Option Offset × List Char)
  | [] => some (none, [])
  | c :: cs =>
    if c = 'Z' ∨ c = 'z' then some (some universal, cs)
    else if c = '+' then (scanMinutes 1 cs).map fun (offset, rest) => (some offset, rest)
    else if c = '-' then (scanMinutes (-1) cs).map fun (offset, rest) => (some offset, rest)
    else none

end Offset

namespace Moment

/-- The point in time that starts with a day, the time of day following after `T` or a blank. -/
def scanAfterDay (day : Day) : List Char → Option (Moment × List Char)
  | [] => some (onDay day, [])
  | c :: cs => do
    if c = 'T' ∨ c = 't' ∨ c = ' ' then
      let (time, cs) ← TimeOfDay.scan cs
      let (offset, cs) ← Offset.scan cs
      return (both day time offset, cs)
    else none

/-- A point in time at the front, and what follows it. A colon after two characters tells a time of
day from a day. -/
def scan (cs : List Char) : Option (Moment × List Char) := do
  if cs[2]? = some ':' then
    let (time, cs) ← TimeOfDay.scan cs
    return (atTime time, cs)
  else
    let (day, cs) ← Day.scan cs
    scanAfterDay day cs

/-- The point in time that a whole text writes. -/
def parse? (text : String) : Option Moment := do
  let (moment, rest) ← scan text.toList
  if rest.isEmpty then return moment else none

end Moment

/-! ## Writing -/

/-- The digits of a number, at least `width` of them. -/
def digits (width n : Nat) : List Char := (Nat.toDigits 10 n).leftpad width '0'

namespace Day

/-- The characters of a day. -/
def chars (day : Day) : List Char :=
  digits 4 day.year ++ '-' :: digits 2 day.month ++ '-' :: digits 2 day.day

end Day

namespace TimeOfDay

/-- The characters of a fraction of a second; a whole second has none. -/
def fractionChars (nanosecond : Nat) : List Char :=
  if nanosecond = 0 then []
  else '.' :: ((digits 9 nanosecond).reverse.dropWhile (· == '0')).reverse

/-- The characters of a time of day. -/
def chars (time : TimeOfDay) : List Char :=
  digits 2 time.hour ++ ':' :: digits 2 time.minute ++ ':' :: digits 2 time.second
    ++ fractionChars time.nanosecond

end TimeOfDay

namespace Offset

/-- The characters of an offset. -/
def chars : Offset → List Char
  | universal => ['Z']
  | ahead minutes =>
    let sign := if minutes < 0 then '-' else '+'
    sign :: digits 2 (minutes.natAbs / 60) ++ ':' :: digits 2 (minutes.natAbs % 60)

end Offset

namespace Moment

/-- The characters of a point in time. -/
def chars : Moment → List Char
  | onDay day => day.chars
  | atTime time => time.chars
  | both day time offset =>
    day.chars ++ 'T' :: time.chars ++ (offset.map Offset.chars).getD []

/-- The text of a point in time. -/
def text (moment : Moment) : String := String.ofList moment.chars

end Moment

end EntityQuery.Toml
