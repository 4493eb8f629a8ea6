import QueryAdvisor.Value.Calendar
import QueryAdvisor.Value.Uuid
import QueryAdvisor.Decimal.Layout
import QueryAdvisor.Decimal.Reader
/-!
# Literal values

A literal of a query: null, a boolean, a 64-bit integer, a double, a decimal kept as its
text, a string, a UUID, a date, a timestamp, or a list of literals.

Each literal has an SQL text: `NULL`, `TRUE` and `FALSE`, numbers as written (a double without
exponent, integral ones without a point), decimals as given, and strings, UUIDs, dates and
timestamps in single quotes with a quote inside doubled. A list is its items in parentheses,
joined by a comma and a blank.

A literal can be read as text (strings only), as an integer (integers, and strings that hold
one), or as a double (numbers, and decimals and strings that hold one).
-/

namespace QueryAdvisor

/-- A literal value. -/
inductive Value where
  | null
  | bool (b : Bool)
  | int (n : Int64)
  | float (x : Float)
  | decimal (text : String)
  | string (s : String)
  | uuid (u : Uuid)
  | date (d : Date)
  | dateTime (t : DateTime)
  | array (items : List Value)

namespace Value

/-- A text in single quotes, with each quote inside written twice. -/
def quoted (s : String) : String :=
  "'" ++ String.join (s.toList.map (fun c => if c = '\'' then "''" else c.toString)) ++ "'"

mutual

/-- The SQL text of a literal. -/
def sql : Value → String
  | .null => "NULL"
  | .bool b => if b then "TRUE" else "FALSE"
  | .int n => toString n.toInt
  | .float x => Decimal.Layout.plain.write x
  | .decimal t => t
  | .string s => quoted s
  | .uuid u => quoted u.text
  | .date d => quoted d.text
  | .dateTime t => quoted (t.textWith " ")
  | .array items => "(" ++ ", ".intercalate (sqlItems items) ++ ")"

/-- The SQL text of each item. -/
def sqlItems : List Value → List String
  | [] => []
  | v :: rest => sql v :: sqlItems rest

end

/-- Whether the literal is null. -/
def isNull : Value → Bool
  | .null => true
  | _ => false

/-- The text of a string literal. -/
def asString? : Value → Option String
  | .string s => some s
  | _ => none

/-- Reads a decimal integer with an optional sign, within 64 signed bits. -/
def readInt64? (s : String) : Option Int64 :=
  let (negative, body) :=
    match s.toList with
    | '-' :: r => (true, r)
    | '+' :: r => (false, r)
    | r => (false, r)
  if body.isEmpty || !body.all Char.isDigit then none
  else
    let n : Int := Decimal.digitsValue body
    let v := if negative then -n else n
    if -(Int.pow 2 63) ≤ v && v < Int.pow 2 63 then some (Int64.ofInt v) else none

/-- The integer of an integer literal, or of a string literal that holds one. -/
def asInt? : Value → Option Int64
  | .int n => some n
  | .string s => readInt64? s
  | _ => none

/-- The double of a numeric literal, or of a decimal or string literal that holds one. -/
def asFloat? : Value → Option Float
  | .int n => some (Float.ofInt n.toInt)
  | .float x => some x
  | .decimal t => Decimal.readFloat? t
  | .string s => Decimal.readFloat? s
  | _ => none

end Value

end QueryAdvisor
