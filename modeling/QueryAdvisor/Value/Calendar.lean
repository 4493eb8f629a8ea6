import QueryAdvisor.Text.Blank
/-!
# Calendar dates and times of day

Dates of the proleptic Gregorian calendar, from year -262143 to year 262142, and timestamps
without a time zone, to the nanosecond. The text of a date is `YYYY-MM-DD`, with a year of
four digits inside 0 to 9999 and a signed year of at least four digits outside. A time is
`HH:MM:SS`, followed by a fraction of three, six or nine digits when it has one.

Reading follows one pattern per kind: numbers, literal separators, and room for white space
before each number and after each separator. A year of more than four digits needs a sign. A
fault is a premature end, an unexpected character, text left over, or a value out of range.
Each field is checked against its own range as soon as it is read (a year must fit 32 bits,
the month 1 to 12, the day 1 to 31, the hour 0 to 23, the minute 0 to 59, the second 0 to
60), before any text after it is looked at; a run of digits too long for 64 bits is out of
range too. Whether the date exists is decided last, after the check for text left over.
-/

namespace QueryAdvisor

/-- A calendar date. -/
structure Date where
  year : Int
  month : Nat
  day : Nat
deriving DecidableEq, Repr

/-- A date and a time of day, to the nanosecond. -/
structure DateTime where
  date : Date
  hour : Nat
  minute : Nat
  second : Nat
  nano : Nat
deriving DecidableEq, Repr

/-- Why a date or time text cannot be read. -/
inductive CalendarFault where
  | outOfRange
  | invalid
  | tooShort
  | tooLong
deriving DecidableEq, Repr

/-- The words for a calendar fault. -/
def CalendarFault.message : CalendarFault → String
  | .outOfRange => "input is out of range"
  | .invalid => "input contains invalid characters"
  | .tooShort => "premature end of input"
  | .tooLong => "trailing input"

namespace Date

/-- Leap years: divisible by four, and by four hundred when divisible by a hundred. -/
def isLeap (y : Int) : Bool := y % 4 == 0 && (y % 100 != 0 || y % 400 == 0)

/-- The number of days of a month. -/
def daysIn (y : Int) (m : Nat) : Nat :=
  match m with
  | 2 => if isLeap y then 29 else 28
  | 4 | 6 | 9 | 11 => 30
  | _ => 31

/-- The date exists and its year is within the supported range. -/
def valid (d : Date) : Bool :=
  -262143 ≤ d.year && d.year ≤ 262142 && 1 ≤ d.month && d.month ≤ 12 && 1 ≤ d.day &&
    d.day ≤ daysIn d.year d.month

/-- `n` written with at least `width` digits. -/
def padded (width n : Nat) : String :=
  let s := toString n
  String.ofList (List.replicate (width - s.length) '0') ++ s

/-- The text of a date. -/
def text (d : Date) : String :=
  let year :=
    if 0 ≤ d.year && d.year ≤ 9999 then padded 4 d.year.toNat
    else (if d.year < 0 then "-" else "+") ++ padded 4 d.year.natAbs
  year ++ "-" ++ padded 2 d.month ++ "-" ++ padded 2 d.day

end Date

/-- The text of a time of day, with the fraction of a second in three, six or nine digits. -/
def DateTime.timeText (t : DateTime) : String :=
  let second := if t.nano ≥ 1000000000 then t.second + 1 else t.second
  let nano := t.nano % 1000000000
  let frac :=
    if nano = 0 then ""
    else if nano % 1000000 = 0 then "." ++ Date.padded 3 (nano / 1000000)
    else if nano % 1000 = 0 then "." ++ Date.padded 6 (nano / 1000)
    else "." ++ Date.padded 9 nano
  Date.padded 2 t.hour ++ ":" ++ Date.padded 2 t.minute ++ ":" ++ Date.padded 2 second ++ frac

/-- The text of a timestamp with `sep` between date and time. -/
def DateTime.textWith (t : DateTime) (sep : String) : String :=
  t.date.text ++ sep ++ t.timeText

namespace CalendarText

/-- Skips leading white space. -/
def blanks (cs : List Char) : List Char := cs.dropWhile isBlank

/-- The largest value a run of digits may reach. -/
def digitLimit : Nat := Nat.pow 2 63 - 1

/-- Adds a digit to a value, unless the value leaves 64 bits. -/
def pushDigit (acc : Option Nat) (c : Char) : Option Nat :=
  acc.bind (fun a => let v := 10 * a + (c.toNat - 48); if v ≤ digitLimit then some v else none)

/-- Reads between one and `most` digits. -/
def digits (cs : List Char) (most : Nat) : Except CalendarFault (Nat × List Char) :=
  let ds := (cs.takeWhile Char.isDigit).take most
  if ds.isEmpty then
    if cs.isEmpty then .error .tooShort else .error .invalid
  else
    match ds.foldl pushDigit (some 0) with
    | some n => .ok (n, cs.drop ds.length)
    | none => .error .outOfRange

/-- Reads a literal character. -/
def literal (c : Char) (cs : List Char) : Except CalendarFault (List Char) :=
  match cs with
  | [] => .error .tooShort
  | x :: r => if x = c then .ok r else .error .invalid

/-- A year within 32 bits. -/
def yearInRange (y : Int) : Except CalendarFault Int :=
  if -(Int.pow 2 31) ≤ y && y < Int.pow 2 31 then .ok y else .error .outOfRange

/-- Reads a year: four digits at most without a sign, any number with one. -/
def year (cs : List Char) : Except CalendarFault (Int × List Char) :=
  match blanks cs with
  | '-' :: r => do
    let (n, rest) ← digits r (r.length + 1)
    .ok (← yearInRange (-(n : Int)), rest)
  | '+' :: r => do
    let (n, rest) ← digits r (r.length + 1)
    .ok (← yearInRange (n : Int), rest)
  | r => do
    let (n, rest) ← digits r 4
    .ok ((n : Int), rest)

/-- Reads a number of two digits at most after blanks, within `[lo, hi]`. -/
def field (lo hi : Nat) (cs : List Char) : Except CalendarFault (Nat × List Char) := do
  let (n, rest) ← digits (blanks cs) 2
  if lo ≤ n && n ≤ hi then .ok (n, rest) else .error .outOfRange

/-- Reads `year-month-day` and gives the rest. -/
def datePart (cs : List Char) : Except CalendarFault ((Int × Nat × Nat) × List Char) := do
  let (y, r) ← year cs
  let r ← literal '-' (blanks r)
  let (m, r) ← field 1 12 r
  let r ← literal '-' (blanks r)
  let (d, r) ← field 1 31 r
  .ok ((y, m, d), blanks r)

/-- Reads a fraction of a second after a point: its first nine digits count. -/
def fraction (cs : List Char) : Except CalendarFault (Nat × List Char) :=
  match cs with
  | '.' :: r =>
    let ds := r.takeWhile Char.isDigit
    if ds.isEmpty then (if r.isEmpty then .error .tooShort else .error .invalid)
    else
      let nine := (ds.take 9) ++ List.replicate (9 - min 9 ds.length) '0'
      .ok (nine.foldl (fun acc c => 10 * acc + (c.toNat - 48)) 0, r.drop ds.length)
  | _ => .ok (0, cs)

end CalendarText

/-- Reads the text of a date. -/
def Date.read (s : String) : Except CalendarFault Date := do
  let ((y, m, d), rest) ← CalendarText.datePart s.toList
  if !rest.isEmpty then .error .tooLong
  else
    let date : Date := ⟨y, m, d⟩
    if date.valid then .ok date else .error .outOfRange

/-- Reads the text of a timestamp, date and time joined by `T`. -/
def DateTime.read (s : String) : Except CalendarFault DateTime := do
  let ((y, m, d), r) ← CalendarText.datePart s.toList
  let r ← CalendarText.literal 'T' r
  let (h, r) ← CalendarText.field 0 23 r
  let r ← CalendarText.literal ':' (CalendarText.blanks r)
  let (mi, r) ← CalendarText.field 0 59 r
  let r ← CalendarText.literal ':' (CalendarText.blanks r)
  let (sec, r) ← CalendarText.field 0 60 r
  let (nano, r) ← CalendarText.fraction r
  let r := CalendarText.blanks r
  if !r.isEmpty then .error .tooLong
  else
    let date : Date := ⟨y, m, d⟩
    if !date.valid then .error .outOfRange
    else if sec = 60 then .ok ⟨date, h, mi, 59, nano + 1000000000⟩
    else .ok ⟨date, h, mi, sec, nano⟩

end QueryAdvisor
