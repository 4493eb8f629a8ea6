import QueryAdvisor.Value.Basic
import QueryAdvisor.Json.Decode
/-!
# Literal values as JSON

A literal is written as its kind's name: the string `"Null"` for null, and an object of one
member for the others, the kind's name mapped to the content (`{"Int64": 5}`). UUIDs, dates
and timestamps are strings in their usual text, a timestamp with `T` between date and time.

Reading accepts exactly these forms. Any other object, a string that names a kind with
content, and any other document are complaints, as is content of the wrong kind or a text
that is no UUID, date or timestamp.
-/

namespace QueryAdvisor

namespace Value

/-- The names of the kinds of literal, in their order. -/
def kindNames : List String :=
  ["Null", "Bool", "Int64", "Float64", "Decimal", "String", "Uuid", "Date", "DateTime", "Array"]

/-- A kind's name with its content. -/
def tagged (name : String) (content : Json) : Json := .object [(name, content)]

mutual

/-- The JSON form of a literal. -/
def toJson : Value → Json
  | .null => .string "Null"
  | .bool b => tagged "Bool" (.bool b)
  | .int n => tagged "Int64" (Json.ofInt n.toInt)
  | .float x => tagged "Float64" (Json.ofFloat x)
  | .decimal t => tagged "Decimal" (.string t)
  | .string s => tagged "String" (.string s)
  | .uuid u => tagged "Uuid" (.string u.text)
  | .date d => tagged "Date" (.string d.text)
  | .dateTime t => tagged "DateTime" (.string (t.textWith "T"))
  | .array items => tagged "Array" (.array (toJsonItems items))

/-- The JSON form of each literal of a list. -/
def toJsonItems : List Value → List Json
  | [] => []
  | v :: rest => toJson v :: toJsonItems rest

end

/-- Reads a string with `read`, whose faults are complaints in its own words. -/
def readText {α ε : Type} (read : String → Except ε α) (words : ε → String) (expected : String)
    (j : Json) (path : List Nat) : Json.Decoded α :=
  match j with
  | .string s =>
    match read s with
    | .ok x => .ok x
    | .error e => Json.complain path (.other (words e))
  | _ => Json.complain path (.invalidType j.found expected)

/-- Reads the content of a kind other than a list, by the kind's index. -/
def scalarOf (k : Nat) (c : Json) (path : List Nat) : Json.Decoded Value :=
  match k with
  | 0 =>
    match c with
    | .null => .ok .null
    | _ => Json.complain path (.invalidType c.found "unit")
  | 1 => (Json.asBool c path).map .bool
  | 2 => (Json.asInt64 c path).map (fun n => .int (Int64.ofInt n))
  | 3 => (Json.asFloat c path).map .float
  | 4 => (Json.asString c path).map .decimal
  | 5 => (Json.asString c path).map .string
  | 6 => (readText Uuid.read (fun e => "UUID parsing failed: " ++ e.message) "a UUID string" c path).map .uuid
  | 7 => (readText Date.read CalendarFault.message "a formatted date string" c path).map .date
  | _ => (readText DateTime.read CalendarFault.message "a formatted date and time string" c path).map .dateTime

mutual

/-- Reads a literal. -/
def ofJson (j : Json) (path : List Nat) : Json.Decoded Value :=
  match j with
  | .string s =>
    match kindNames.idxOf? s with
    | some 0 => .ok .null
    | some _ => Json.complain path (.invalidType .unitVariant "newtype variant")
    | none => Json.complain path (.unknownVariant s kindNames)
  | .object [(name, content)] =>
    match kindNames.idxOf? name with
    | some 9 =>
      match content with
      | .array items => (ofJsonItems items (0 :: path) 0).map .array
      | _ => Json.complain (0 :: path) (.invalidType content.found "a sequence")
    | some k => scalarOf k content (0 :: path)
    | none => Json.complain path (.unknownVariant name kindNames)
  | .object _ => Json.complain path (.invalidValue .map "map with a single key")
  | _ => Json.complain path (.invalidType j.found "string or map")

/-- Reads the literals of a list, counting positions from `i`. -/
def ofJsonItems (items : List Json) (path : List Nat) (i : Nat) : Json.Decoded (List Value) :=
  match items with
  | [] => .ok []
  | j :: rest => do
    let v ← ofJson j (i :: path)
    let vs ← ofJsonItems rest path (i + 1)
    .ok (v :: vs)

end

end Value

end QueryAdvisor
