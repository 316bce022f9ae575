/-!
# Calendar dates

Moments of the Gregorian calendar in universal time, and durations, to the second, in the notation
of ISO 8601.
-/

namespace Lifecycle

structure Date where
  year : Nat
  month : Nat
  day : Nat
deriving DecidableEq, Repr

namespace Date

def isLeap (year : Nat) : Bool :=
  year % 4 == 0 && (year % 100 != 0 || year % 400 == 0)

def monthLength (year month : Nat) : Nat :=
  if month == 2 then (if isLeap year then 29 else 28)
  else if [4, 6, 9, 11].contains month then 30
  else 31

/-- The day after. -/
def next (d : Date) : Date :=
  if d.day < monthLength d.year d.month then { d with day := d.day + 1 }
  else if d.month < 12 then ⟨d.year, d.month + 1, 1⟩
  else ⟨d.year + 1, 1, 1⟩

/-- A number of days later. -/
def later : Nat → Date → Date
  | 0, d => d
  | n + 1, d => later n d.next

end Date

/-- A number in at least as many digits as given. -/
def padded (width n : Nat) : String :=
  let digits := Nat.toDigits 10 n
  String.ofList (List.replicate (width - digits.length) '0' ++ digits)

def secondsPerDay : Nat := 86400

/-- The moment a number of seconds after midnight of a day. -/
def momentText (start : Date) (seconds : Nat) : String :=
  let d := Date.later (seconds / secondsPerDay) start
  let s := seconds % secondsPerDay
  padded 4 d.year ++ "-" ++ padded 2 d.month ++ "-" ++ padded 2 d.day ++ "T"
    ++ padded 2 (s / 3600) ++ ":" ++ padded 2 (s / 60 % 60) ++ ":" ++ padded 2 (s % 60) ++ "Z"

/-- A part of a duration, which is left out when it is zero. -/
def durationPart (n : Nat) (unit : String) : String :=
  if n == 0 then "" else toString n ++ unit

def durationText (seconds : Nat) : String :=
  if seconds == 0 then "PT0S"
  else
    "PT" ++ durationPart (seconds / 3600) "H" ++ durationPart (seconds / 60 % 60) "M"
      ++ durationPart (seconds % 60) "S"

end Lifecycle
