import Facade.Settings.Toml.Number

/-!
# Dates and times of TOML

A date, a time of day, or both, then perhaps with the offset from universal time. The date has to be
one of the calendar; the sixtieth second of a minute is allowed for. No setting takes any of these.
-/

set_option autoImplicit false

namespace Facade.Toml

/-- A day of the calendar. -/
structure Date where
  year : Nat
  month : Nat
  day : Nat

/-- A time of day. The digits behind the point of the second are kept as they are written. -/
structure Time where
  hour : Nat
  minute : Nat
  second : Nat
  fraction : List Nat

/-- What a value can say about when something is. The offset is counted in minutes. -/
inductive Moment where
  | date (date : Date)
  | time (time : Time)
  | both (date : Date) (time : Time) (offset : Option Int)

/-- Whether a year has a day more than others. -/
def isLeap (year : Nat) : Bool :=
  year % 4 == 0 && (year % 100 != 0 || year % 400 == 0)

/-- The days of a month. -/
def daysIn (year month : Nat) : Nat :=
  if month == 2 then if isLeap year then 29 else 28
  else if [4, 6, 9, 11].contains month then 30
  else 31

/-- The text behind a character. -/
def after? (c : Char) : List Char → Option (List Char)
  | [] => none
  | d :: rest => if c = d then some rest else none

/-- Reads a number of two digits that lies between two others. -/
def twoDigits (low high : Nat) : Reader Nat
  | a :: b :: rest => do
    let n := numeral 10 [← digit? 10 a, ← digit? 10 b]
    if low ≤ n && n ≤ high then some (n, rest) else none
  | _ => none

/-- Reads a date. -/
def date : Reader Date := fun text => do
  let (century, rest) ← twoDigits 0 99 text
  let (year, rest) ← twoDigits 0 99 rest
  let (month, rest) ← twoDigits 1 12 (← after? '-' rest)
  let (day, rest) ← twoDigits 1 31 (← after? '-' rest)
  let year := 100 * century + year
  if day ≤ daysIn year month then some (⟨year, month, day⟩, rest) else none

/-- Reads a time of day. -/
def time : Reader Time := fun text => do
  let (hour, rest) ← twoDigits 0 23 text
  let (minute, rest) ← twoDigits 0 59 (← after? ':' rest)
  let (second, rest) ← twoDigits 0 60 (← after? ':' rest)
  match rest with
  | '.' :: behind =>
    match behind.takeWhile Char.isDigit with
    | [] => some (⟨hour, minute, second, []⟩, rest)
    | places =>
      some (⟨hour, minute, second, places.filterMap (digit? 10)⟩, behind.dropWhile Char.isDigit)
  | _ => some (⟨hour, minute, second, []⟩, rest)

/-- Reads an offset from universal time. -/
def offset : Reader Int
  | [] => none
  | c :: rest =>
    if c == 'Z' || c == 'z' then some (0, rest)
    else if c == '+' || c == '-' then do
      let (hours, rest) ← twoDigits 0 23 rest
      let (minutes, rest) ← twoDigits 0 59 (← after? ':' rest)
      return (signed (c == '-') (60 * hours + minutes), rest)
    else none

/-- Reads the time of day behind a date. -/
def timeOfDate : Reader Time
  | [] => none
  | c :: rest => if c == 'T' || c == 't' || c == ' ' then time rest else none

/-- Reads a date, a time, or both. -/
def moment : Reader Moment := fun text =>
  match date text with
  | none => (time text).map fun (time, rest) => (.time time, rest)
  | some (date, rest) =>
    match timeOfDate rest with
    | none => some (.date date, rest)
    | some (time, rest) =>
      match offset rest with
      | none => some (.both date time none, rest)
      | some (offset, rest) => some (.both date time (some offset), rest)

end Facade.Toml
