import QueryAdvisor.Predicate.Basic
import QueryAdvisor.Value.Json
/-!
# Predicates as JSON

A predicate is an object whose member `kind` names its shape (`comparison`, `in`, `between`,
`like`, `null_check`, `logical`, `subquery`, `raw`) and whose other members are the shape's
fields. The flags `negated` of lists and patterns may be left out and then are false.
Operators are their SQL symbols, with `<>` read as `!=`; connectives are `AND`, `OR`, `NOT`.

A predicate may also be an array whose first item is the kind and whose other items are the
fields in order. Reading a predicate takes its members in as a whole first and reads its
fields after, so a complaint about a field stands after the whole predicate.
-/

namespace QueryAdvisor

namespace CompareOp

/-- The symbols of the operators, the alias of inequality beside it. -/
def symbols : List (String × Nat) :=
  [("=", 0), ("!=", 1), ("<>", 1), ("<", 2), ("<=", 3), (">", 4), (">=", 5)]

/-- The operator with an index. -/
def ofIndex : Nat → CompareOp
  | 0 => .eq
  | 1 => .notEq
  | 2 => .lt
  | 3 => .le
  | 4 => .gt
  | _ => .ge

/-- Reads an operator symbol. -/
def ofJson (j : Json) (path : List Nat) : Json.Decoded CompareOp :=
  (Json.asVariant symbols j path).map ofIndex

end CompareOp

namespace Connective

/-- The keywords of the connectives. -/
def names : List String := ["AND", "OR", "NOT"]

/-- Reads a connective keyword. -/
def ofJson (j : Json) (path : List Nat) : Json.Decoded Connective :=
  (Json.asVariant (Json.numbered names) j path).map
    (fun i => match i with
      | 0 => .and
      | 1 => .or
      | _ => .not)

end Connective

namespace Predicate

/-- The names of the shapes, in their order. -/
def kindNames : List String :=
  ["comparison", "in", "between", "like", "null_check", "logical", "subquery", "raw"]

mutual

/-- The JSON form of a predicate. -/
def toJson : Predicate → Json
  | .comparison f op v =>
    .object [("kind", .string "comparison"), ("field", .string f), ("op", .string op.symbol), ("value", v.toJson)]
  | .inList f vs negated =>
    .object [("kind", .string "in"), ("field", .string f), ("values", .array (Value.toJsonItems vs)),
      ("negated", .bool negated)]
  | .between f lo hi =>
    .object [("kind", .string "between"), ("field", .string f), ("low", lo.toJson), ("high", hi.toJson)]
  | .like f pattern negated =>
    .object [("kind", .string "like"), ("field", .string f), ("pattern", .string pattern), ("negated", .bool negated)]
  | .nullCheck f isNull =>
    .object [("kind", .string "null_check"), ("field", .string f), ("is_null", .bool isNull)]
  | .logical op children =>
    .object [("kind", .string "logical"), ("op", .string op.keyword), ("children", .array (toJsonList children))]
  | .subquery f s => .object [("kind", .string "subquery"), ("field", .string f), ("sql", .string s)]
  | .raw s => .object [("kind", .string "raw"), ("sql", .string s)]

/-- The JSON form of each predicate of a list. -/
def toJsonList : List Predicate → List Json
  | [] => []
  | p :: rest => toJson p :: toJsonList rest

end

/-- Reads the kind of a predicate: its name, or, for a predicate nested in another one, also
its index among the kinds. -/
def kindOf (nested : Bool) (j : Json) (path : List Nat) : Json.Decoded Nat :=
  match j with
  | .string s =>
    match kindNames.idxOf? s with
    | some i => .ok i
    | none => Json.complain path (.unknownVariant s kindNames)
  | .number (.nat n) =>
    if !nested then Json.complain path (.invalidType j.found "variant identifier")
    else if n < kindNames.length then .ok n
    else Json.complain path (.invalidValue (.nat n) "variant index 0 <= i < 8")
  | _ =>
    Json.complain path (.invalidType j.found "variant identifier")
      (if j matches .array _ | .object _ then .before else .after)

/-- The kind of an object predicate and its other members, after checking that `kind`
stands once and names a kind. -/
def splitKind (nested : Bool) (path : List Nat) :
    Nat → List (String × Json) → Option Nat → List (String × Json) → Json.Decoded (Option Nat × List (String × Json))
  | _, [], tag, rest => .ok (tag, rest.reverse)
  | i, (k, v) :: more, tag, rest =>
    if k == "kind" then
      match tag with
      | some _ => Json.complain (i :: path) (.duplicateField "kind") .afterKey
      | none =>
        match kindOf nested v (i :: path) with
        | .ok t => splitKind nested path (i + 1) more (some t) rest
        | .error e => .error e
    else splitKind nested path (i + 1) more tag ((k, v) :: rest)

/-- The fields of each kind, in their order, with the number of leading ones that must be
present when the fields come as a list. -/
def fieldNames : Nat → List String
  | 0 => ["field", "op", "value"]
  | 1 => ["field", "values", "negated"]
  | 2 => ["field", "low", "high"]
  | 3 => ["field", "pattern", "negated"]
  | 4 => ["field", "is_null"]
  | 5 => ["op", "children"]
  | 6 => ["field", "sql"]
  | _ => ["sql"]

/-- The name of a kind in complaints. -/
def kindTitle : Nat → String
  | 0 => "Comparison"
  | 1 => "In"
  | 2 => "Between"
  | 3 => "Like"
  | 4 => "NullCheck"
  | 5 => "Logical"
  | 6 => "Subquery"
  | _ => "Raw"

/-- A field of a predicate, read. -/
inductive FieldValue where
  | text (s : String)
  | compare (op : CompareOp)
  | value (v : Value)
  | values (vs : List Value)
  | flag (b : Bool)
  | connective (c : Connective)
  | children (ps : List Predicate)

namespace FieldValue

/-- The text of a field, if it is text. -/
def text? : FieldValue → Option String
  | .text s => some s
  | _ => none

/-- The operator of a field, if it is one. -/
def compare? : FieldValue → Option CompareOp
  | .compare op => some op
  | _ => none

/-- The value of a field, if it is one. -/
def value? : FieldValue → Option Value
  | .value v => some v
  | _ => none

/-- The values of a field, if it is a list of them. -/
def values? : FieldValue → Option (List Value)
  | .values vs => some vs
  | _ => none

/-- The flag of a field, if it is one. -/
def flag? : FieldValue → Option Bool
  | .flag b => some b
  | _ => none

/-- The connective of a field, if it is one. -/
def connective? : FieldValue → Option Connective
  | .connective c => some c
  | _ => none

/-- The operands of a field, if it is a list of predicates. -/
def children? : FieldValue → Option (List Predicate)
  | .children ps => some ps
  | _ => none

end FieldValue

/-- How a field of a predicate of a kind is read; `children` reads the operands of a
connective. -/
def fieldReader (children : Json → List Nat → Json.Decoded (List Predicate)) (kind : Nat) (name : String)
    (j : Json) (path : List Nat) : Json.Decoded FieldValue :=
  match name with
  | "value" | "low" | "high" => (Value.ofJson j path).map .value
  | "values" => (Json.asList Value.ofJson j path).map .values
  | "negated" | "is_null" => (Json.asBool j path).map .flag
  | "op" => if kind = 5 then (Connective.ofJson j path).map .connective else (CompareOp.ofJson j path).map .compare
  | "children" => (children j path).map .children
  | _ => (Json.asString j path).map .text

/-- The fields of a predicate: read from its members, or still to be read from a list with
`read`. -/
inductive Fields where
  | record (path : List Nat) (seen : List (String × FieldValue))
  | positional (items : List Json) (path : List Nat) (kind : Nat) (read : String → Json → List Nat → Json.Decoded FieldValue)

/-- A field that must be present; `pick` takes its value out. -/
def Fields.need {α : Type} (fs : Fields) (name : String) (pick : FieldValue → Option α) : Json.Decoded α :=
  let picked (v : FieldValue) (path : List Nat) : Json.Decoded α :=
    match pick v with
    | some x => .ok x
    | none => Json.complain path (.missingField name)
  match fs with
  | .record path seen =>
    match seen.find? (fun s => s.1 == name) with
    | some (_, v) => picked v path
    | none => Json.complain path (.missingField name)
  | .positional items path kind read =>
    let names := fieldNames kind
    let i := (names.idxOf? name).getD 0
    match items[i]? with
    | some j => do picked (← read name j (i :: path)) path
    | none =>
      Json.complain path (.invalidLength items.length
        (Json.withElements ("struct variant Predicate::" ++ kindTitle kind) names.length))

/-- A flag that is false when absent. -/
def Fields.flag (fs : Fields) (name : String) : Json.Decoded Bool :=
  match fs with
  | .record _ seen =>
    match seen.find? (fun s => s.1 == name) with
    | some (_, .flag b) => .ok b
    | _ => .ok false
  | .positional items path kind read =>
    let i := ((fieldNames kind).idxOf? name).getD 0
    match items[i]? with
    | some j => do
      match ← read name j (i :: path) with
      | .flag b => .ok b
      | _ => .ok false
    | none => .ok false

/-- Makes a predicate of a kind from its fields. -/
def shape (kind : Nat) (fs : Fields) : Json.Decoded Predicate :=
  match kind with
  | 0 => do
    let f ← fs.need "field" FieldValue.text?
    let op ← fs.need "op" FieldValue.compare?
    let v ← fs.need "value" FieldValue.value?
    .ok (.comparison f op v)
  | 1 => do
    let f ← fs.need "field" FieldValue.text?
    let vs ← fs.need "values" FieldValue.values?
    let n ← fs.flag "negated"
    .ok (.inList f vs n)
  | 2 => do
    let f ← fs.need "field" FieldValue.text?
    let lo ← fs.need "low" FieldValue.value?
    let hi ← fs.need "high" FieldValue.value?
    .ok (.between f lo hi)
  | 3 => do
    let f ← fs.need "field" FieldValue.text?
    let pattern ← fs.need "pattern" FieldValue.text?
    let n ← fs.flag "negated"
    .ok (.like f pattern n)
  | 4 => do
    let f ← fs.need "field" FieldValue.text?
    let isNull ← fs.need "is_null" FieldValue.flag?
    .ok (.nullCheck f isNull)
  | 5 => do
    let op ← fs.need "op" FieldValue.connective?
    let cs ← fs.need "children" FieldValue.children?
    .ok (.logical op cs)
  | 6 => do
    let f ← fs.need "field" FieldValue.text?
    let s ← fs.need "sql" FieldValue.text?
    .ok (.subquery f s)
  | _ => do
    let s ← fs.need "sql" FieldValue.text?
    .ok (.raw s)

/-- Reads a predicate of a known kind from what follows the kind: the other members of an
object, or the other items of an array, which may not outnumber the fields. `read` reads a
field of a kind. -/
def ofFields (read : Nat → String → Json → List Nat → Json.Decoded FieldValue) (kind : Nat)
    (rest : List (String × Json) ⊕ List Json) (path : List Nat) : Json.Decoded Predicate :=
  match rest with
  | .inl members => do
    let known (k : String) := if (fieldNames kind).contains k then some (read kind k) else none
    let seen ← Json.readMembers path known 0 members []
    shape kind (.record path seen)
  | .inr items => do
    let r ← shape kind (.positional items path kind (read kind))
    let expected := (fieldNames kind).length
    if items.length > expected then
      Json.complain path (.invalidLength items.length
        (toString expected ++ (if expected == 1 then " element" else " elements") ++ " in sequence"))
    else .ok r

/-- Reads a predicate, `nested` in another one or not; `fuel` bounds the nesting of
connectives, as documents nest at most 128 deep. Each field is read once, so the work grows
with the size of the document. -/
def ofJsonFuel : Nat → Bool → Json → List Nat → Json.Decoded Predicate
  | 0, _, _, path => Json.complain path (.other "recursion limit exceeded")
  | fuel + 1, nested, j, path =>
    let read := fieldReader (Json.asList (ofJsonFuel fuel true))
    match j with
    | .object members =>
      match splitKind nested path 0 members none [] with
      | .error e => .error e
      | .ok (none, _) => Json.complain path (.missingField "kind")
      | .ok (some kind, rest) => Json.relocate path .afterItem (ofFields read kind (.inl rest) path)
    | .array [] => Json.complain path (.missingField "kind")
    | .array (t :: rest) =>
      match kindOf nested t (0 :: path) with
      | .error e => .error e
      | .ok kind => Json.relocate path .afterItem (ofFields read kind (.inr rest) path)
    | _ => Json.complain path (.invalidType j.found "internally tagged enum Predicate")

/-- Reads a predicate. -/
def ofJson (j : Json) (path : List Nat) : Json.Decoded Predicate := ofJsonFuel 128 false j path

/-- Reads a field of a predicate of a kind; the operands of a connective are predicates
nested in it. -/
def readField : Nat → String → Json → List Nat → Json.Decoded FieldValue :=
  fieldReader (Json.asList (ofJsonFuel 128 true))

end Predicate

end QueryAdvisor
