import QueryAdvisor.Json.Reader
/-!
# Decoding documents into typed values

A decoder reads a `Json` document as a value of some type and names the first thing it finds
wrong. Complaints are in the words of the JSON data model: a value of the wrong kind, a value
out of range, an unknown variant name, a missing or repeated field.

A complaint also says where it stands: the path of item and member positions from the root,
and whether it is placed before the value, after it, after a member's key, or after the value
and the separator that follows it in its array. Text that was read with `readWithSpans` turns
this into a line and a column.

Records are read as follows. Members are visited in the order given; a member whose key no
field has is passed over; the second member of a known key is a complaint; each field's value
is read as it is visited; after the last member, the first missing field in the order the
fields are declared is a complaint, unless it has a default. A record may also be a sequence
of its fields' values in their declared order: items may be missing at the end as long as
their fields have defaults, and an item past the last field is a complaint.
-/

namespace QueryAdvisor

namespace Json

/-- What a decoder found in place of what it wanted. -/
inductive Found where
  | null
  | bool (b : Bool)
  | nat (n : Nat)
  | neg (n : Int)
  | float (x : Float)
  /-- A float named by a reader with no wording of its own for numbers. -/
  | plainFloat (x : Float)
  | string (s : String)
  | sequence
  | map
  | unitVariant

/-- The hexadecimal digits of a number, lower case, without leading zeros. -/
def hexDigits (n : Nat) : String :=
  String.ofList ((Nat.toDigits 16 n))

/-- A string in double quotes with quotes, backslashes and control characters escaped. -/
def debugQuote (s : String) : String :=
  let esc (c : Char) : String :=
    match c with
    | '"' => "\\\""
    | '\\' => "\\\\"
    | '\n' => "\\n"
    | '\r' => "\\r"
    | '\t' => "\\t"
    | _ =>
      if c.toNat = 0 then "\\0"
      else if c.toNat < 32 || (127 ≤ c.toNat && c.toNat < 160) then "\\u" ++ "\x7b" ++ hexDigits c.toNat ++ "\x7d"
      else c.toString
  "\"" ++ String.join (s.toList.map esc) ++ "\""

/-- How a found value is named in a complaint. -/
def Found.describe : Found → String
  | .null => "null"
  | .bool b => "boolean `" ++ (if b then "true" else "false") ++ "`"
  | .nat n => "integer `" ++ toString n ++ "`"
  | .neg n => "integer `" ++ toString n ++ "`"
  | .float x => "floating point `" ++ Decimal.Layout.json.write x ++ "`"
  | .plainFloat x =>
    let text := Decimal.Layout.plain.write x
    "floating point `" ++ text ++ (if x.isFinite && !text.contains '.' then ".0" else "") ++ "`"
  | .string s => "string " ++ debugQuote s
  | .sequence => "sequence"
  | .map => "map"
  | .unitVariant => "unit variant"

/-- What a document is, as a complaint names it. -/
def found : Json → Found
  | .null => .null
  | .bool b => .bool b
  | .number (.nat n) => .nat n
  | .number (.neg n) => .neg n
  | .number (.float x) => .float x
  | .string s => .string s
  | .array _ => .sequence
  | .object _ => .map

/-- The ways a document can fail to be a value of a type. -/
inductive Problem where
  | invalidType (found : Found) (expected : String)
  | invalidValue (found : Found) (expected : String)
  | invalidLength (length : Nat) (expected : String)
  | unknownVariant (name : String) (expected : List String)
  | missingField (name : String)
  | duplicateField (name : String)
  | other (text : String)

/-- The names a complaint offers, each in backticks: one, two joined by "or", or a list. -/
def oneOf (names : List String) : String :=
  let tick (n : String) := "`" ++ n ++ "`"
  match names with
  | [] => "there are no variants"
  | [a] => "expected " ++ tick a
  | [a, b] => "expected " ++ tick a ++ " or " ++ tick b
  | _ => "expected one of " ++ ", ".intercalate (names.map tick)

/-- The words of a problem. -/
def Problem.message : Problem → String
  | .invalidType f e => "invalid type: " ++ f.describe ++ ", expected " ++ e
  | .invalidValue f e => "invalid value: " ++ f.describe ++ ", expected " ++ e
  | .invalidLength n e => "invalid length " ++ toString n ++ ", expected " ++ e
  | .unknownVariant n e => "unknown variant `" ++ n ++ "`, " ++ oneOf e
  | .missingField n => "missing field `" ++ n ++ "`"
  | .duplicateField n => "duplicate field `" ++ n ++ "`"
  | .other t => t

/-- Where a complaint is placed relative to the value its path leads to: before or after it,
after its key and the blanks that follow the key, or after it and what closes or separates it
in its array. -/
inductive Place where
  | before
  | after
  | afterKey
  | afterItem

/-- A complaint with its place: `path` lists item or member positions from the innermost out. -/
structure DecodeError where
  problem : Problem
  path : List Nat
  place : Place

/-- The result of a decoder. -/
abbrev Decoded (α : Type) := Except DecodeError α

/-- A complaint about the value at `path`. -/
def complain {α : Type} (path : List Nat) (p : Problem) (place : Place := .after) : Decoded α :=
  .error ⟨p, path, place⟩

/-- The span that a path leads to. -/
def Span.at? (s : Span) : List Nat → Option Span
  | [] => some s
  | i :: rest => (s.at? rest).bind (fun t => t.parts[i]?)

/-- The byte offset after blanks. -/
def skipBlankBytes (bytes : List UInt8) (pos : Nat) : Nat :=
  match bytes with
  | b :: rest => if b == 32 || b == 10 || b == 9 || b == 13 then skipBlankBytes rest (pos + 1) else pos
  | [] => pos

/-- The byte offset of a complaint in the text the spans were read from. -/
def DecodeError.offset (e : DecodeError) (root : Span) (text : String) : Nat :=
  match root.at? e.path with
  | none => root.stop
  | some s =>
    match e.place with
    | .before => s.start
    | .after => s.stop
    | .afterKey =>
      match e.path with
      | i :: rest =>
        match (root.at? rest).bind (fun p => p.keyStops[i]?) with
        | some k => skipBlankBytes (text.toUTF8.toList.drop k) k
        | none => s.stop
      | [] => s.stop
    | .afterItem =>
      let bytes := text.toUTF8.toList
      let next := skipBlankBytes (bytes.drop s.stop) s.stop
      match bytes[next]? with
      | some 93 => next + 1
      | some 44 => skipBlankBytes (bytes.drop (next + 1)) (next + 1)
      | _ => next

/-- A complaint in words, with the line and column where it stands in `text`. -/
def DecodeError.describe (e : DecodeError) (root : Span) (text : String) : String :=
  let (line, column) := lineColumn text (e.offset root text)
  e.problem.message ++ " at line " ++ toString line ++ " column " ++ toString column

/-- A string. -/
def asString (j : Json) (path : List Nat) : Decoded String :=
  match j with
  | .string s => .ok s
  | _ => complain path (.invalidType j.found "a string") (if j matches .array _ | .object _ then .before else .after)

/-- A boolean. -/
def asBool (j : Json) (path : List Nat) : Decoded Bool :=
  match j with
  | .bool b => .ok b
  | _ => complain path (.invalidType j.found "a boolean") (if j matches .array _ | .object _ then .before else .after)

/-- A float; integers are taken at their nearest double. -/
def asFloat (j : Json) (path : List Nat) : Decoded Float :=
  match j with
  | .number (.float x) => .ok x
  | .number (.nat n) => .ok (Float.ofNat n)
  | .number (.neg n) => .ok (Float.ofInt n)
  | _ => complain path (.invalidType j.found "f64") (if j matches .array _ | .object _ then .before else .after)

/-- An integer within `[lo, hi]`, named `name` in complaints. -/
def asIntIn (lo hi : Int) (name : String) (j : Json) (path : List Nat) : Decoded Int :=
  match j with
  | .number (.nat n) => if (n : Int) ≤ hi then .ok n else complain path (.invalidValue (.nat n) name)
  | .number (.neg n) => if lo ≤ n then .ok n else complain path (.invalidValue (.neg n) name)
  | _ => complain path (.invalidType j.found name) (if j matches .array _ | .object _ then .before else .after)

/-- A 64-bit signed integer. -/
def asInt64 (j : Json) (path : List Nat) : Decoded Int :=
  asIntIn (-(Int.pow 2 63)) (Int.pow 2 63 - 1) "i64" j path

/-- A 32-bit signed integer. -/
def asInt32 (j : Json) (path : List Nat) : Decoded Int :=
  asIntIn (-(Int.pow 2 31)) (Int.pow 2 31 - 1) "i32" j path

/-- A 64-bit unsigned integer, named `name` in complaints. -/
def asNatNamed (name : String) (j : Json) (path : List Nat) : Decoded Nat :=
  (asIntIn 0 (Int.pow 2 64 - 1) name j path).map Int.toNat

/-- A 64-bit unsigned integer. -/
def asNat64 (j : Json) (path : List Nat) : Decoded Nat := asNatNamed "u64" j path

/-- An optional value: `null` is none. -/
def asOption {α : Type} (dec : Json → List Nat → Decoded α) (j : Json) (path : List Nat) :
    Decoded (Option α) :=
  match j with
  | .null => .ok none
  | _ => (dec j path).map some

/-- Decodes each item of a list, with its position. -/
def itemsFrom {α : Type} (dec : Json → List Nat → Decoded α) (path : List Nat) :
    Nat → List Json → Decoded (List α)
  | _, [] => .ok []
  | i, j :: rest => do
    let x ← dec j (i :: path)
    let xs ← itemsFrom dec path (i + 1) rest
    .ok (x :: xs)

/-- A sequence of values. -/
def asList {α : Type} (dec : Json → List Nat → Decoded α) (j : Json) (path : List Nat) :
    Decoded (List α) :=
  match j with
  | .array items => itemsFrom dec path 0 items
  | _ => complain path (.invalidType j.found "a sequence") (if j matches .object _ then .before else .after)

/-- A check that a member's value can be read as its field. -/
abbrev FieldCheck := Json → List Nat → Decoded Unit

/-- Visits the members in order: a known key met twice, or a value that its field cannot read,
is a complaint. Gives the first member of each known key with its position. -/
def visitMembers (path : List Nat) (fields : List (String × FieldCheck)) :
    Nat → List (String × Json) → List (String × (Nat × Json)) → Decoded (List (String × (Nat × Json)))
  | _, [], seen => .ok seen
  | i, (k, v) :: rest, seen =>
    match fields.find? (fun f => f.1 == k) with
    | none => visitMembers path fields (i + 1) rest seen
    | some (_, check) =>
      if seen.any (fun s => s.1 == k) then complain (i :: path) (.duplicateField k) .afterKey
      else do
        check v (i :: path)
        visitMembers path fields (i + 1) rest (seen ++ [(k, (i, v))])

/-- Reads the members in order, each known one once: a known key met twice, or a value that
its field cannot read, is a complaint. Gives what the first member of each known key reads as,
so that a value nested in a field is read only once. -/
def readMembers {β : Type} (path : List Nat) (field : String → Option (Json → List Nat → Decoded β)) :
    Nat → List (String × Json) → List (String × β) → Decoded (List (String × β))
  | _, [], seen => .ok seen
  | i, (k, v) :: rest, seen =>
    match field k with
    | none => readMembers path field (i + 1) rest seen
    | some dec =>
      if seen.any (fun s => s.1 == k) then complain (i :: path) (.duplicateField k) .afterKey
      else do
        let x ← dec v (i :: path)
        readMembers path field (i + 1) rest (seen ++ [(k, x)])

/-- A record's members after the visit: each known field's value and position. -/
structure Record where
  path : List Nat
  seen : List (String × (Nat × Json))

/-- How a record that comes as a sequence of `count` items is named in a complaint. -/
def withElements (expected : String) (count : Nat) : String :=
  expected ++ " with " ++ toString count ++ (if count == 1 then " element" else " elements")

/-- Takes the items of a sequence as the fields in their order, checking each item as it is
taken. Once the items run out, a field without a default is a complaint naming how many items
a record has. -/
def takeItems (path : List Nat) (expected : String) (count : Nat) (required : List String) :
    Nat → List (String × FieldCheck) → List Json → List (String × (Nat × Json)) →
      Decoded (List (String × (Nat × Json)))
  | _, [], _, seen => .ok seen
  | i, (name, check) :: fields, item :: items, seen => do
    check item (i :: path)
    takeItems path expected count required (i + 1) fields items (seen ++ [(name, (i, item))])
  | i, (name, _) :: fields, [], seen =>
    if required.contains name then complain path (.invalidLength i (withElements expected count))
    else takeItems path expected count required (i + 1) fields [] seen

/-- Reads a record: an object whose members pass the visit, or a sequence whose items are the
fields in order, where the fields named `required` have no default and items past the last
field are a complaint. -/
def Record.of (j : Json) (path : List Nat) (expected : String) (fields : List (String × FieldCheck))
    (required : List String) : Decoded Record :=
  match j with
  | .object members => do
    let seen ← visitMembers path fields 0 members []
    .ok ⟨path, seen⟩
  | .array items => do
    let seen ← takeItems path expected fields.length required 0 fields items []
    if fields.length < items.length then complain path (.invalidLength items.length "fewer elements in array")
    else .ok ⟨path, seen⟩
  | _ => complain path (.invalidType j.found expected)

/-- A field that must be present. -/
def Record.need {α : Type} (r : Record) (name : String) (dec : Json → List Nat → Decoded α) : Decoded α :=
  match r.seen.find? (fun s => s.1 == name) with
  | some (_, (i, v)) => dec v (i :: r.path)
  | none => complain r.path (.missingField name)

/-- A field with a default when absent. -/
def Record.withDefault {α : Type} (r : Record) (name : String) (dec : Json → List Nat → Decoded α) (default : α) :
    Decoded α :=
  match r.seen.find? (fun s => s.1 == name) with
  | some (_, (i, v)) => dec v (i :: r.path)
  | none => .ok default

/-- An optional field: absent or `null` is none. -/
def Record.opt {α : Type} (r : Record) (name : String) (dec : Json → List Nat → Decoded α) : Decoded (Option α) :=
  r.withDefault name (asOption dec) none

/-- The check of a field read by `dec`. -/
def check {α : Type} (dec : Json → List Nat → Decoded α) : FieldCheck :=
  fun j path => (dec j path).map (fun _ => ())

/-- A unit variant: a string among the names, each with the index of its variant; several
names may share a variant. -/
def asVariant (names : List (String × Nat)) (j : Json) (path : List Nat) : Decoded Nat :=
  let expected := names.map (·.1)
  match j with
  | .string s =>
    match names.find? (fun n => n.1 == s) with
    | some (_, i) => .ok i
    | none => complain path (.unknownVariant s expected)
  | .object [(s, v)] =>
    match names.find? (fun n => n.1 == s) with
    | some (_, i) =>
      match v with
      | .null => .ok i
      | _ => complain (0 :: path) (.invalidType v.found "unit")
    | none => complain path (.unknownVariant s expected)
  | .object _ => complain path (.invalidValue .map "map with a single key")
  | _ => complain path (.invalidType j.found "string or map")

/-- Names numbered in order, one variant each. -/
def numbered (names : List String) : List (String × Nat) := names.zip (List.range names.length)

/-- A value of a type with finitely many, each read by its name. -/
def asNamed {α : Type} (all : List α) (name : α → String) (fallback : α) (j : Json) (path : List Nat) :
    Decoded α :=
  (asVariant (numbered (all.map name)) j path).map (fun i => all.getD i fallback)

/-- The items of a tuple of `n` values. -/
def tupleItems (n : Nat) (j : Json) (path : List Nat) : Decoded (List Json) :=
  match j with
  | .array items => .ok items
  | _ => complain path (.invalidType j.found ("a tuple of size " ++ toString n))

/-- The item `i` of a tuple of `n` values, read by `dec`; a missing item is a short tuple. -/
def tupleItem {α : Type} (n : Nat) (items : List Json) (path : List Nat) (i : Nat)
    (dec : Json → List Nat → Decoded α) : Decoded α :=
  match items[i]? with
  | some j => dec j (i :: path)
  | none => complain path (.invalidLength i ("a tuple of size " ++ toString n))

/-- A tuple of `n` values has no item past them. -/
def tupleEnd (n : Nat) (items : List Json) (path : List Nat) : Decoded Unit :=
  if items.length > n then complain path (.invalidLength items.length "fewer elements in array") else .ok ()

/-- A pair of values. -/
def asPair {α β : Type} (da : Json → List Nat → Decoded α) (db : Json → List Nat → Decoded β)
    (j : Json) (path : List Nat) : Decoded (α × β) := do
  let items ← tupleItems 2 j path
  let a ← tupleItem 2 items path 0 da
  let b ← tupleItem 2 items path 1 db
  tupleEnd 2 items path
  .ok (a, b)

/-- Moves a complaint to a new place. -/
def relocate {α : Type} (path : List Nat) (place : Place) (r : Decoded α) : Decoded α :=
  match r with
  | .ok x => .ok x
  | .error e => .error { e with path := path, place := place }

end Json

end QueryAdvisor
