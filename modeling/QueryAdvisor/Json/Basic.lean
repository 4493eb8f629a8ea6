import QueryAdvisor.Decimal.Layout
/-!
# JSON documents

A JSON document is a tree of nulls, booleans, numbers, strings, arrays and objects. Numbers
keep the class a reader gives them: a non-negative integer, a negative integer or a float,
because a field that asks for an unsigned integer accepts the first only.

Objects keep their members in the order written, duplicates included. `Json.sortKeys` gives
the form a keyed map has: members ordered by key, the last of equal keys kept.

Documents are written compactly (`Json.compact`) or one member a line with two blanks of
indentation a level (`Json.pretty`). Floats are written by `Layout.json`; a float that is no
finite number has no JSON text and is written `null`.
-/

namespace QueryAdvisor

/-- A JSON number: a non-negative integer, a negative integer, or a float. -/
inductive Json.Number where
  | nat (n : Nat)
  | neg (n : Int)
  | float (x : Float)

/-- A JSON document. -/
inductive Json where
  | null
  | bool (b : Bool)
  | number (n : Json.Number)
  | string (s : String)
  | array (items : List Json)
  | object (members : List (String × Json))

namespace Json

/-- A float as a JSON number. -/
def ofFloat (x : Float) : Json := .number (.float x)

/-- A natural number as a JSON number. -/
def ofNat (n : Nat) : Json := .number (.nat n)

/-- An integer as a JSON number. -/
def ofInt (n : Int) : Json := if n < 0 then .number (.neg n) else .number (.nat n.toNat)

/-- An optional string: `null` when absent. -/
def ofOption (s : Option String) : Json := match s with
  | some t => .string t
  | none => .null

/-- A list of strings. -/
def ofStrings (ss : List String) : Json := .array (ss.map .string)

/-- The value of a member of an object: the last one with this key. -/
def get? (j : Json) (key : String) : Option Json :=
  match j with
  | .object members => (members.reverse.find? (fun m => m.1 == key)).map (·.2)
  | _ => none

/-- Inserts a member into a list ordered by key, replacing one of the same key. -/
def insertMember (m : String × Json) : List (String × Json) → List (String × Json)
  | [] => [m]
  | n :: rest =>
    if m.1 < n.1 then m :: n :: rest
    else if m.1 == n.1 then m :: rest
    else n :: insertMember m rest

mutual

/-- The keyed-map form: members ordered by key, the last of equal keys kept, at every
level. -/
def sortKeys : Json → Json
  | .array items => .array (sortItems items)
  | .object members => .object ((sortMembers members).foldl (fun acc m => insertMember m acc) [])
  | j => j

/-- `sortKeys` on each item. -/
def sortItems : List Json → List Json
  | [] => []
  | j :: rest => sortKeys j :: sortItems rest

/-- `sortKeys` on each member's value. -/
def sortMembers : List (String × Json) → List (String × Json)
  | [] => []
  | (k, v) :: rest => (k, sortKeys v) :: sortMembers rest

end

/-- The four hexadecimal digits of a code unit, in lower case. -/
def hex4 (n : Nat) : String :=
  let digit (d : Nat) : Char := if d < 10 then Char.ofNat (48 + d) else Char.ofNat (87 + d)
  String.ofList [digit (n / 4096 % 16), digit (n / 256 % 16), digit (n / 16 % 16), digit (n % 16)]

/-- The escaped form of one character inside a JSON string. -/
def escapeChar (c : Char) : String :=
  match c with
  | '"' => "\\\""
  | '\\' => "\\\\"
  | '\n' => "\\n"
  | '\r' => "\\r"
  | '\t' => "\\t"
  | _ =>
    if c.toNat = 8 then "\\b"
    else if c.toNat = 12 then "\\f"
    else if c.toNat < 32 then "\\u" ++ hex4 c.toNat
    else c.toString

/-- A string as a quoted JSON string. -/
def quote (s : String) : String :=
  "\"" ++ String.join (s.toList.map escapeChar) ++ "\""

/-- The text of a number. -/
def Number.text : Number → String
  | .nat n => toString n
  | .neg n => toString n
  | .float x => Decimal.Layout.json.write x

mutual

/-- The compact text of a document. -/
def compact : Json → String
  | .null => "null"
  | .bool b => if b then "true" else "false"
  | .number n => n.text
  | .string s => quote s
  | .array items => "[" ++ ",".intercalate (compactItems items) ++ "]"
  | .object members => "\x7b" ++ ",".intercalate (compactMembers members) ++ "\x7d"

/-- The compact text of each item. -/
def compactItems : List Json → List String
  | [] => []
  | j :: rest => compact j :: compactItems rest

/-- The compact text of each member. -/
def compactMembers : List (String × Json) → List String
  | [] => []
  | (k, v) :: rest => (quote k ++ ":" ++ compact v) :: compactMembers rest

end

mutual

/-- The text of a document with one item a line, indented by two blanks a level beyond
`indent`. -/
def prettyAt (indent : String) : Json → String
  | .array [] => "[]"
  | .object [] => "\x7b\x7d"
  | .array items =>
    "[\n" ++ ",\n".intercalate (prettyItems (indent ++ "  ") items) ++ "\n" ++ indent ++ "]"
  | .object members =>
    "\x7b\n" ++ ",\n".intercalate (prettyMembers (indent ++ "  ") members) ++ "\n" ++ indent ++ "\x7d"
  | j => compact j

/-- Each item on a line of its own. -/
def prettyItems (indent : String) : List Json → List String
  | [] => []
  | j :: rest => (indent ++ prettyAt indent j) :: prettyItems indent rest

/-- Each member on a line of its own. -/
def prettyMembers (indent : String) : List (String × Json) → List String
  | [] => []
  | (k, v) :: rest => (indent ++ quote k ++ ": " ++ prettyAt indent v) :: prettyMembers indent rest

end

/-- The indented text of a document. -/
def pretty (j : Json) : String := prettyAt "" j

end Json

end QueryAdvisor
