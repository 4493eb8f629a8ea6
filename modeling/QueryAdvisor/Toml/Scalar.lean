import QueryAdvisor.Decimal.Reader
/-!
# Numbers, dates and times in TOML text

A value that starts with a sign or a digit is read as a date or a time if it can be one, else
as a float, else as an integer. Each reading may *miss*, and then the next one is tried from
the same place, or *fail*, and then the value is wrong. A reading fails once it is past a point
where nothing else could be meant: the `-` after a four-digit year, the `:` after an hour, the
point of a fraction, the `e` of an exponent, an underscore, a `0x`, `0o` or `0b`.

A fault is told in up to three lines: what was being read (`invalid integer`), what was
expected where the reading stopped (`expected digit`), and what a check of the value found
(`value is out of range`, `number too large to fit in target type`). The parts of the grammar
add these on the way out, so the innermost name is the one told, and every expectation met on
the way is listed. When every reading misses, the fault is the last reading's.

Every character of these values is ASCII, so a count of characters read is a count of bytes.
-/

namespace QueryAdvisor

namespace Toml

/-- The words of a fault in a scalar, gathered from the inside out. -/
structure Complaint where
  /-- What was being read, innermost first. -/
  names : List String := []
  /-- What was expected, innermost first. -/
  expected : List String := []
  /-- What a check of the value found. -/
  cause : Option String := none

namespace Complaint

/-- The complaint of a value out of its range. -/
def outOfRange : Complaint := { cause := some "value is out of range" }

/-- Adds what was being read. -/
def named (c : Complaint) (name : String) : Complaint := { c with names := c.names ++ [name] }

/-- Adds what was expected. -/
def expecting (c : Complaint) (what : String) : Complaint := { c with expected := c.expected ++ [what] }

/-- The words: the innermost name, the expectations, and the cause, one to a line. -/
def message (c : Complaint) : String :=
  "\n".intercalate ((c.names.head?.map ("invalid " ++ ·)).toList ++
    (if c.expected.isEmpty then [] else ["expected " ++ ", ".intercalate c.expected]) ++ c.cause.toList)

end Complaint

/-- How reading part of a scalar went; `used` counts the characters from the scalar's start
to where the reading stands. -/
inductive Scan (α : Type) where
  /-- Read `x`, with `rest` after it. -/
  | read (x : α) (rest : List Char) (used : Nat)
  /-- Does not fit; another reading may be tried. -/
  | miss (used : Nat) (c : Complaint)
  /-- Fits no reading: the value is wrong. -/
  | fail (used : Nat) (c : Complaint)

/-- A reader of part of a scalar, from the characters left and the count already used. -/
def Grammar (α : Type) : Type := List Char → Nat → Scan α

instance : Monad Grammar where
  pure x := fun cs used => .read x cs used
  bind p f := fun cs used =>
    match p cs used with
    | .read x rest u => f x rest u
    | .miss u c => .miss u c
    | .fail u c => .fail u c

/-- A scalar that starts with a sign or a digit. -/
inductive Scalar where
  | integer (n : Int)
  | float (x : Float)
  | datetime (text : String)

namespace Grammar

/-- Changes the complaint of a miss or a failure. -/
def mapComplaint {α : Type} (f : Complaint → Complaint) (p : Grammar α) : Grammar α := fun cs used =>
  match p cs used with
  | .read x rest u => .read x rest u
  | .miss u c => .miss u (f c)
  | .fail u c => .fail u (f c)

/-- Names what `p` reads, for its faults. -/
def named {α : Type} (name : String) (p : Grammar α) : Grammar α := mapComplaint (·.named name) p

/-- Says what `p` expects, for its faults. -/
def expecting {α : Type} (what : String) (p : Grammar α) : Grammar α := mapComplaint (·.expecting what) p

/-- Makes a miss of `p` a failure: past this point nothing else could be meant. -/
def commit {α : Type} (p : Grammar α) : Grammar α := fun cs used =>
  match p cs used with
  | .miss u c => .fail u c
  | s => s

/-- Reads `p`, or, if it misses, `q` from the same place. -/
def orElse {α : Type} (p q : Grammar α) : Grammar α := fun cs used =>
  match p cs used with
  | .miss _ _ => q cs used
  | s => s

/-- Reads `p` if it fits here. -/
def optional {α : Type} (p : Grammar α) : Grammar (Option α) := fun cs used =>
  match p cs used with
  | .read x rest u => .read (some x) rest u
  | .miss _ _ => .read none cs used
  | .fail u c => .fail u c

/-- Reads `p` and checks its value; a value that is refused is a miss where `p` started. -/
def checked {α : Type} (p : Grammar α) (refuse : α → Option Complaint) : Grammar α := fun cs used =>
  match p cs used with
  | .read x rest u =>
    match refuse x with
    | some c => .miss used c
    | none => .read x rest u
  | s => s

/-- Reads one character that passes a test. -/
def charWith (good : Char → Bool) : Grammar Char := fun cs used =>
  match cs with
  | c :: rest => if good c then .read c rest (used + 1) else .miss used {}
  | [] => .miss used {}

/-- Reads a given character. -/
def char (x : Char) : Grammar Unit := fun cs used =>
  match cs with
  | c :: rest => if c = x then .read () rest (used + 1) else .miss used {}
  | [] => .miss used {}

/-- An optional sign: whether it is a minus. -/
def sign : Grammar Bool := fun cs used =>
  match cs with
  | '-' :: rest => .read true rest (used + 1)
  | '+' :: rest => .read false rest (used + 1)
  | _ => .read false cs used

/-- Reads exactly `n` decimal digits, as their value. -/
def fixedDigits (n : Nat) : Grammar Nat := fun cs used =>
  let ds := cs.take n
  if ds.length = n && ds.all Char.isDigit then .read (Decimal.digitsValue ds) (cs.drop n) (used + n)
  else .miss used {}

/-- The value of a digit of base at most sixteen. -/
def digitValue (c : Char) : Nat :=
  if c.isDigit then c.toNat - '0'.toNat
  else if 'a' ≤ c && c ≤ 'f' then c.toNat - 'a'.toNat + 10
  else if 'A' ≤ c && c ≤ 'F' then c.toNat - 'A'.toNat + 10
  else 0

/-- The value of digits in a base. -/
def valueIn (base : Nat) (ds : List Char) : Nat := ds.foldl (fun n c => base * n + digitValue c) 0

/-- Whether a character is a hexadecimal digit. -/
def isHexDigit (c : Char) : Bool := c.isDigit || ('a' ≤ c && c ≤ 'f') || ('A' ≤ c && c ≤ 'F')

/-- The digits after the first of a run: digits, and underscores each followed by a digit. An
underscore commits to that digit. Gives the digits without the underscores. -/
def digitTail (isDigit : Char → Bool) : Grammar (List Char)
  | c :: rest, used =>
    if isDigit c then
      match digitTail isDigit rest (used + 1) with
      | .read ds r u => .read (c :: ds) r u
      | .miss u k => .miss u k
      | .fail u k => .fail u k
    else if c = '_' then
      match rest with
      | d :: more =>
        if isDigit d then
          match digitTail isDigit more (used + 2) with
          | .read ds r u => .read (d :: ds) r u
          | .miss u k => .miss u k
          | .fail u k => .fail u k
        else .fail (used + 1) (({} : Complaint).expecting "digit")
      | [] => .fail (used + 1) (({} : Complaint).expecting "digit")
    else .read [] (c :: rest) used
  | [], used => .read [] [] used

/-- A run of digits that may start with zero. -/
def leadingRun : Grammar (List Char) := do
  let c ← charWith Char.isDigit
  let ds ← digitTail Char.isDigit
  pure (c :: ds)

/-- The largest signed 64-bit integer. -/
def intMax : Nat := 9223372036854775807

/-- A decimal integer's sign and digits: `0` alone, or a digit from one to nine and more. -/
def decimalInteger : Grammar (Bool × List Char) :=
  named "integer" (do
    let negative ← sign
    let whole ← orElse
      (do
        let c ← charWith (fun c => c.isDigit && c != '0')
        let ds ← digitTail Char.isDigit
        pure (c :: ds))
      (do let c ← charWith Char.isDigit; pure [c])
    pure (negative, whole))

/-- A fraction's digits: a point commits to them. -/
def fraction : Grammar (List Char) := do
  char '.'
  expecting "digit" (commit leadingRun)

/-- An exponent: `e` or `E` and a sign commit to its digits. -/
def exponent : Grammar Int := do
  let _ ← charWith (fun c => c = 'e' || c = 'E')
  let negative ← sign
  let ds ← commit leadingRun
  let n : Int := Decimal.digitsValue ds
  pure (if negative then -n else n)

/-- The parts of a float with digits: an integer part, then an exponent, or a fraction and
perhaps an exponent. -/
def floatParts : Grammar (Bool × Decimal.Dec) := do
  let (negative, whole) ← decimalInteger
  let (frac, expo) ← orElse
    (do let e ← exponent; pure ([], e))
    (do
      let f ← fraction
      let e ← optional exponent
      pure (f, e.getD 0))
  pure (negative, ⟨Decimal.digitsValue (whole ++ frac), expo - frac.length⟩)

/-- `inf` or `nan` after a sign. -/
def specialFloat : Grammar Float := fun cs used =>
  match sign cs used with
  | .read negative rest u =>
    match rest with
    | 'i' :: 'n' :: 'f' :: more => .read (if negative then -(1.0 / 0.0) else 1.0 / 0.0) more (u + 3)
    | 'n' :: 'a' :: 'n' :: more => .read (if negative then -(0.0 / 0.0) else 0.0 / 0.0) more (u + 3)
    | _ => .miss u {}
  | .miss u c => .miss u c
  | .fail u c => .fail u c

/-- A float: digits, or `inf` or `nan`. A value too large for a double is refused, if it is
positive. -/
def float : Grammar Float :=
  named "floating-point number" (orElse
    (fun cs used =>
      match floatParts cs used with
      | .read (negative, d) rest u =>
        let x := d.toFloat negative
        if x.isInf && x > 0 then .fail used {} else .read x rest u
      | .miss u c => .miss u c
      | .fail u c => .fail u c)
    specialFloat)

/-- An integer in base 16, 8 or 2 after its prefix; the prefix commits to the digits. -/
def radixInteger (base : Nat) (name : String) (isDigit : Char → Bool) : Grammar Int := fun cs used =>
  let digits : Grammar (List Char) :=
    named name (do
      char '0'
      let _ ← charWith (fun _ => true)
      commit (do
        let c ← charWith isDigit
        let ds ← digitTail isDigit
        pure (c :: ds)))
  match digits cs used with
  | .read ds rest u =>
    let n := valueIn base ds
    if n > intMax then .fail used { cause := some "number too large to fit in target type" }
    else .read n rest u
  | .miss u c => .fail u c
  | .fail u c => .fail u c

/-- An integer: hexadecimal, octal or binary after `0x`, `0o` or `0b`, else decimal with a
sign. Values outside the signed 64-bit integers are refused. -/
def integer : Grammar Int := fun cs used =>
  match cs with
  | '0' :: 'x' :: _ => radixInteger 16 "hexadecimal integer" isHexDigit cs used
  | '0' :: 'o' :: _ => radixInteger 8 "octal integer" (fun c => '0' ≤ c && c ≤ '7') cs used
  | '0' :: 'b' :: _ => radixInteger 2 "binary integer" (fun c => c = '0' || c = '1') cs used
  | _ =>
    match decimalInteger cs used with
    | .read (negative, ds) rest u =>
      let n := Decimal.digitsValue ds
      if negative then
        if n > intMax + 1 then .fail used { cause := some "number too small to fit in target type" }
        else .read (-(n : Int)) rest u
      else if n > intMax then .fail used { cause := some "number too large to fit in target type" }
      else .read n rest u
    | .miss u c => .miss u c
    | .fail u c => .fail u c

/-- The days of a month of a year. -/
def daysIn (year month : Nat) : Nat :=
  if month = 2 then
    if year % 4 = 0 && (year % 100 != 0 || year % 400 = 0) then 29 else 28
  else if month = 4 || month = 6 || month = 9 || month = 11 then 30
  else 31

/-- Two digits within a range. -/
def twoDigitsIn (lo hi : Nat) : Grammar Nat :=
  checked (fixedDigits 2) (fun v => if lo ≤ v && v ≤ hi then none else some Complaint.outOfRange)

/-- A date `YYYY-MM-DD`: the `-` after the year commits, and the day must be in its month. -/
def fullDate : Grammar Unit := do
  let year ← fixedDigits 4
  char '-'
  let month ← commit (twoDigitsIn 1 12)
  commit (char '-')
  let _ ← commit (checked (twoDigitsIn 1 31)
    (fun d => if d ≤ daysIn year month then none else some Complaint.outOfRange))
  pure ()

/-- A time `HH:MM:SS` with an optional fraction of a second: the `:` after the hour commits. -/
def partialTime : Grammar Unit := do
  let _ ← twoDigitsIn 0 23
  char ':'
  commit (do
    let _ ← twoDigitsIn 0 59
    char ':'
    let _ ← twoDigitsIn 0 60
    let _ ← optional (do
      char '.'
      let _ ← charWith Char.isDigit
      let _ ← digitTailPlain
      pure ())
    pure ())
where
  /-- Digits without underscores. -/
  digitTailPlain : Grammar Unit := fun cs used =>
    let ds := cs.takeWhile Char.isDigit
    .read () (cs.drop ds.length) (used + ds.length)

/-- An offset: `Z`, or a sign that commits to `HH:MM`. -/
def timeOffset : Grammar Unit :=
  named "time offset" (orElse
    (do let _ ← charWith (fun c => c = 'Z' || c = 'z'); pure ())
    (do
      let _ ← charWith (fun c => c = '+' || c = '-')
      commit (do
        let _ ← twoDigitsIn 0 23
        char ':'
        let _ ← twoDigitsIn 0 59
        pure ())))

/-- A date with an optional time and offset, or a time alone. -/
def dateTime : Grammar Unit :=
  orElse
    (named "date-time" (do
      fullDate
      let _ ← optional (do
        let _ ← charWith (fun c => c = 'T' || c = 't' || c = ' ')
        partialTime
        let _ ← optional timeOffset
        pure ())
      pure ()))
    (named "time" partialTime)

/-- Reads a scalar that starts with a sign or a digit: a date or time, a float, or an
integer. -/
def scalar : Grammar Scalar := fun cs used =>
  let asText : Grammar Scalar := fun cs' used' =>
    match dateTime cs' used' with
    | .read () rest u => .read (.datetime (String.ofList (cs'.take (u - used')))) rest u
    | .miss u c => .miss u c
    | .fail u c => .fail u c
  orElse asText
    (orElse (do let x ← float; pure (.float x)) (do let n ← integer; pure (.integer n))) cs used

end Grammar

end Toml

end QueryAdvisor
