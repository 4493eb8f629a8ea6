import QueryAdvisor.Json.Decode
/-!
# TOML documents

A TOML document is a table of keys to values. Each value, and each key, keeps the bytes of the
text it was read from, so that a complaint about it can point at it: the report names the line
and column of the first byte, repeats the line, and underlines the value with carets.

Tables remember how they came about, because the rules for adding to a table depend on it: a
table written inline is closed, a table named by a header may be named only once, and a table
that only stands on the way to another (`[a.b]` makes `a`) may still get a header of its own.
-/

namespace QueryAdvisor

/-- How a table of a document came about. -/
inductive TableKind where
  /-- Written between braces. -/
  | inline
  /-- Named by a header. -/
  | header
  /-- Made on the way to a table named by a header. -/
  | implicit
  /-- Made by a dotted key. -/
  | dotted
deriving DecidableEq, Repr

/-- A key of a table as it was written: its name and its bytes, quotes included. -/
structure TomlKey where
  name : String
  start : Nat
  stop : Nat
deriving Repr

/-- A value of a TOML document with its first byte and the byte after it. -/
inductive Toml where
  | string (s : String) (start stop : Nat)
  | integer (n : Int) (start stop : Nat)
  | float (x : Float) (start stop : Nat)
  | boolean (b : Bool) (start stop : Nat)
  | datetime (text : String) (start stop : Nat)
  | array (items : List Toml) (start stop : Nat)
  /-- The tables of repeated array headers. -/
  | tables (items : List Toml) (start stop : Nat)
  | table (entries : List (TomlKey × Toml)) (kind : TableKind) (start stop : Nat)

namespace Toml

/-- The first byte of a value. -/
def start : Toml → Nat
  | .string _ s _ | .integer _ s _ | .float _ s _ | .boolean _ s _ | .datetime _ s _
  | .array _ s _ | .tables _ s _ | .table _ _ s _ => s

/-- The byte after a value. -/
def stop : Toml → Nat
  | .string _ _ e | .integer _ _ e | .float _ _ e | .boolean _ _ e | .datetime _ _ e
  | .array _ _ e | .tables _ _ e | .table _ _ _ e => e

/-- What a value is, as a complaint names it. -/
def found : Toml → Json.Found
  | .string s _ _ => .string s
  | .integer n _ _ => if n < 0 then .neg n else .nat n.toNat
  | .float x _ _ => .plainFloat x
  | .boolean b _ _ => .bool b
  | .array _ _ _ | .tables _ _ _ => .sequence
  | .datetime _ _ _ | .table _ _ _ _ => .map

/-- The name of the kind of a value. -/
def typeName : Toml → String
  | .string _ _ _ => "string"
  | .integer _ _ _ => "integer"
  | .float _ _ _ => "float"
  | .boolean _ _ _ => "boolean"
  | .datetime _ _ _ => "datetime"
  | .array _ _ _ => "array"
  | .tables _ _ _ => "array of tables"
  | .table _ _ _ _ => "table"

end Toml

/-- A fault in a TOML document: the bytes it concerns and what is wrong. -/
structure TomlFault where
  start : Nat
  stop : Nat
  message : String

namespace TomlFault

/-- The line (from zero) and column (in characters, from zero) of a byte of a text. A byte
inside a character that is not its last counts its column in bytes; an offset past the end
continues the last line. -/
def position (text : String) (index : Nat) : Nat × Nat :=
  let size := text.utf8ByteSize
  if size = 0 then (0, index)
  else
    let safe := min index (size - 1)
    let extra := index - safe
    let starts := (text.toList.foldl (fun (acc : List (Char × Nat) × Nat) c =>
      ((c, acc.2) :: acc.1, acc.2 + c.utf8Size)) ([], 0)).1.reverse
    let before := starts.filter (fun cp => cp.2 < safe)
    let lineStart := (before.foldl (fun s cp => if cp.1 = '\n' then cp.2 + 1 else s) 0)
    let line := (before.filter (fun cp => cp.1 = '\n')).length
    let ends := starts.any (fun cp => cp.2 + cp.1.utf8Size = safe + 1)
    let column :=
      if ends then (starts.filter (fun cp => lineStart ≤ cp.2 && cp.2 + cp.1.utf8Size ≤ safe + 1)).length - 1
      else safe - lineStart
    (line, column + extra)

/-- The report of a fault: where it is, the line it is on with the faulty bytes underlined,
and what is wrong. -/
def describe (f : TomlFault) (text : String) : String :=
  let (line, column) := position text f.start
  let number := toString (line + 1)
  let gutter := String.ofList (List.replicate (number.length + 1) ' ')
  let content := ((text.splitOn "\n")[line]?).getD ""
  let width := min (f.stop - f.start) (content.utf8ByteSize - column)
  "TOML parse error at line " ++ number ++ ", column " ++ toString (column + 1) ++ "\n" ++
    gutter ++ "|\n" ++ number ++ " | " ++ content ++ "\n" ++
    gutter ++ "|" ++ String.ofList (List.replicate (column + 1) ' ') ++
    String.ofList (List.replicate (max width 1) '^') ++ "\n" ++ f.message ++ "\n"

end TomlFault

end QueryAdvisor
