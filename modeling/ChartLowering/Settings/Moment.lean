import ChartLowering.Binary64.Reader

/-
  Dates and times in configuration files.

  A moment is a date, a time of day, or both with a letter or one blank between them; only a date
  with a time may also have an offset from universal time. What day a moment falls on matters to no
  setting, so a moment is recognised and kept as it is written. A date has to be one of the calendar.
-/

namespace ChartLowering.Toml

/-- A number of so many digits at the front of a text, and the rest. -/
def digits? (count : Nat) (cs : List Char) : Option (Nat × List Char) :=
  let ds := cs.take count
  if ds.length = count ∧ ds.all Char.isDigit then
    some (Binary64.natOfDigits ds, cs.drop count)
  else none

/-- The text after an expected character. -/
def after? (c : Char) : List Char → Option (List Char)
  | d :: rest => if d = c then some rest else none
  | [] => none

def isLeapYear (year : Nat) : Bool := year % 4 == 0 && (year % 100 != 0 || year % 400 == 0)

/-- The days of a month; no days for what is no month. -/
def daysOfMonth (year month : Nat) : Nat :=
  if month = 2 then (if isLeapYear year then 29 else 28)
  else if month ∈ [4, 6, 9, 11] then 30
  else if month ∈ [1, 3, 5, 7, 8, 10, 12] then 31
  else 0

/-- The text after a date, which has four digits for the year and two for the month and the day. -/
def afterDate? (cs : List Char) : Option (List Char) := do
  let (year, cs) ← digits? 4 cs
  let (month, cs) ← digits? 2 (← after? '-' cs)
  let (day, cs) ← digits? 2 (← after? '-' cs)
  if 1 ≤ year ∧ 1 ≤ day ∧ day ≤ daysOfMonth year month then some cs else none

/-- The text after an hour and a minute. -/
def afterMinutes? (cs : List Char) : Option (List Char) := do
  let (hour, cs) ← digits? 2 cs
  let (minute, cs) ← digits? 2 (← after? ':' cs)
  if hour < 24 ∧ minute < 60 then some cs else none

/-- The text after a time of day, whose seconds may have a fraction. -/
def afterTime? (cs : List Char) : Option (List Char) := do
  let (second, cs) ← digits? 2 (← after? ':' (← afterMinutes? cs))
  if 60 ≤ second then none
  else match cs with
    | '.' :: cs => if (cs.head?.any Char.isDigit) then some (cs.dropWhile Char.isDigit) else none
    | _ => some cs

/-- Whether a text is an offset from universal time, or nothing. -/
def isOffset : List Char → Bool
  | [] => true
  | c :: cs =>
    if c = 'Z' ∨ c = 'z' then cs.isEmpty
    else if c = '+' ∨ c = '-' then afterMinutes? cs = some []
    else false

def isDate (cs : List Char) : Bool := afterDate? cs = some []

def isTime (cs : List Char) : Bool := afterTime? cs = some []

/-- Whether a text is a time of day that may have an offset. -/
def isTimeWithOffset (cs : List Char) : Bool := (afterTime? cs).any isOffset

/-- Whether a text is a date, a time of day, or a date and a time. -/
def isMoment (cs : List Char) : Bool :=
  isDate cs || isTime cs ||
    match afterDate? cs with
    | some (c :: rest) => (c == 'T' || c == 't' || c == ' ') && isTimeWithOffset rest
    | _ => false

end ChartLowering.Toml
