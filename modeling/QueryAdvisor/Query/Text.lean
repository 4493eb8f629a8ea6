import QueryAdvisor.Query.Json
import QueryAdvisor.Json.Stream
/-!
# Query models read from their text

A query model given as text is read front to back with the readers of `JsonText`, so a
complaint names the first thing wrong in reading order, and a record's missing field is told
once the record is closed, whatever follows it.

A predicate names its kind in the member `kind`, which may stand anywhere among its members,
so its other members are first taken in as documents and its fields read from them after the
predicate is closed: a complaint about such a field stands after the predicate, past the comma
or bracket that follows it in its list.
-/

namespace QueryAdvisor

namespace QueryText

open Json JsonText

/-- A field of a record of a query model, read. -/
inductive Part where
  | text (s : String)
  | maybeText (s : Option String)
  | flag (b : Bool)
  | joinKind (k : JoinKind)
  | function (f : AggregateFn)
  | predicates (ps : List Predicate)
  | joins (js : List Join)
  | names (ns : List String)
  | orderKeys (os : List OrderKey)
  | aggregates (xs : List Aggregate)

namespace Part

/-- The text of a part, if it is text. -/
def text? : Part → Option String
  | .text s => some s
  | _ => none

/-- The optional text of a part, if it is one. -/
def maybeText? : Part → Option (Option String)
  | .maybeText s => some s
  | _ => none

/-- The flag of a part, if it is one. -/
def flag? : Part → Option Bool
  | .flag b => some b
  | _ => none

/-- The join kind of a part, if it is one. -/
def joinKind? : Part → Option JoinKind
  | .joinKind k => some k
  | _ => none

/-- The aggregate function of a part, if it is one. -/
def function? : Part → Option AggregateFn
  | .function f => some f
  | _ => none

/-- The predicates of a part, if it is a list of them. -/
def predicates? : Part → Option (List Predicate)
  | .predicates ps => some ps
  | _ => none

/-- The joins of a part, if it is a list of them. -/
def joins? : Part → Option (List Join)
  | .joins js => some js
  | _ => none

/-- The names of a part, if it is a list of them. -/
def names? : Part → Option (List String)
  | .names ns => some ns
  | _ => none

/-- The ordering entries of a part, if it is a list of them. -/
def orderKeys? : Part → Option (List OrderKey)
  | .orderKeys os => some os
  | _ => none

/-- The aggregates of a part, if it is a list of them. -/
def aggregates? : Part → Option (List Aggregate)
  | .aggregates xs => some xs
  | _ => none

end Part

/-- A field read as text. -/
def textField (name : String) (required : Bool) : RecordField Part :=
  ⟨name, required, fun _ => Reader.map Part.text JsonText.string⟩

/-- A field read as optional text, absent or `null` when there is none. -/
def maybeTextField (name : String) : RecordField Part :=
  ⟨name, false, fun _ => Reader.map Part.maybeText (JsonText.optional JsonText.string)⟩

/-- Reads a join. -/
def join (depth : Nat) : Reader Join :=
  record "struct JoinClause"
    [textField "table" true, maybeTextField "alias",
     ⟨"join_type", false, fun d => Reader.map (Part.joinKind ∘ JoinKind.ofIndex) (unitVariant (numbered JoinKind.names) d)⟩,
     textField "left_field" true, textField "right_field" true]
    (fun seen => do
      let table ← need seen "table" Part.text?
      let aliasName := (lookup seen "alias" Part.maybeText?).getD none
      let kind := (lookup seen "join_type" Part.joinKind?).getD .inner
      let leftField ← need seen "left_field" Part.text?
      let rightField ← need seen "right_field" Part.text?
      .ok ⟨table, aliasName, kind, leftField, rightField⟩)
    depth

/-- Reads an ordering entry. -/
def orderKey (depth : Nat) : Reader OrderKey :=
  record "struct OrderBy"
    [textField "column" true, ⟨"descending", false, fun _ => Reader.map Part.flag JsonText.bool⟩]
    (fun seen => do
      let column ← need seen "column" Part.text?
      .ok ⟨column, (lookup seen "descending" Part.flag?).getD false⟩)
    depth

/-- The aggregate function with an index among `AggregateFn.names`. -/
def functionOfIndex : Nat → AggregateFn
  | 0 => .count
  | 1 => .sum
  | 2 => .avg
  | 3 => .min
  | _ => .max

/-- Reads an aggregate. -/
def aggregate (depth : Nat) : Reader Aggregate :=
  record "struct Aggregate"
    [⟨"function", true, fun d => Reader.map (Part.function ∘ functionOfIndex) (unitVariant (numbered AggregateFn.names) d)⟩,
     maybeTextField "column", maybeTextField "alias"]
    (fun seen => do
      let fn ← need seen "function" Part.function?
      .ok ⟨fn, (lookup seen "column" Part.maybeText?).getD none, (lookup seen "alias" Part.maybeText?).getD none⟩)
    depth

/-- The names of the kinds of predicates, each with its index. -/
def kindNames : List (String × Nat) := numbered Predicate.kindNames

/-- Reads the members of a predicate object after its brace, up to its closing brace, which
is not taken: the kind, a variant name, at most once, and the other members as documents at
the nesting left. -/
def taggedMembers (depth : Nat) :
    Nat → Bool → Option Nat → List (String × Json) → Reader (Option Nat × List (String × Json))
  | 0, _, kind, acc => fun c => .ok ((kind, acc.reverse), c)
  | fuel + 1, first, kind, acc => fun c =>
    match nextKey c first with
    | .error e => .error e
    | .ok (false, c1) => .ok ((kind, acc.reverse), c1)
    | .ok (true, c1) =>
      match c1.advance.string with
      | .error e => .error (.ofSyntax e)
      | .ok (key, c2) =>
        if key == "kind" then
          if kind.isSome then .error (.pending (.duplicateField "kind") c2)
          else
            match (colon c2).bind (variantName kindNames) with
            | .error e => .error e
            | .ok (k, c3) => taggedMembers depth fuel false (some k) acc c3
        else
          match colon c2 with
          | .error e => .error e
          | .ok c3 =>
            match c3.value (2 * budget c3) depth with
            | .error e => .error (.ofSyntax e)
            | .ok (j, _, c4) => taggedMembers depth fuel false kind ((key, j) :: acc) c4

/-- Reads the items after the kind of a predicate given as an array, as documents at the
nesting left, up to the closing bracket, which is not taken. -/
def taggedItems (depth : Nat) : Nat → List Json → Reader (List Json)
  | 0, acc => fun c => .ok (acc.reverse, c)
  | fuel + 1, acc => fun c =>
    match nextItem c false with
    | .error e => .error e
    | .ok (false, c1) => .ok (acc.reverse, c1)
    | .ok (true, c1) =>
      match c1.value (2 * budget c1) depth with
      | .error e => .error (.ofSyntax e)
      | .ok (j, _, c2) => taggedItems depth fuel (j :: acc) c2

/-- Reads a predicate in a list: an object with its kind among its members, or an array whose
first item is the kind. Its fields are read once it is closed, and a complaint about them is
open at the place after it. -/
def predicate (depth : Nat) : Reader Predicate := fun c0 =>
  let c := c0.blanks
  let fields (kind : Nat) (rest : List (String × Json) ⊕ List Json) (after : Cursor) :
      Except Failure (Predicate × Cursor) :=
    match Predicate.ofFields Predicate.readField kind rest [] with
    | .ok p => .ok (p, after)
    | .error e => .error (.pending e.problem after)
  match c.rest with
  | [] => peekFailure c .eofValue
  | '{' :: _ =>
    if depth ≤ 1 then peekFailure c .recursionLimitExceeded
    else
      match taggedMembers (depth - 1) (budget c) true none [] c.advance with
      | .error (.pending p stop) => complaint (pastMap stop) p
      | .error e => .error e
      | .ok ((none, _), c1) => complaint (pastMap c1) (.missingField "kind")
      | .ok ((some kind, rest), c1) =>
        match closeMap c1 with
        | .error e => .error e
        | .ok c2 => fields kind (.inl rest) c2
  | '[' :: _ =>
    if depth ≤ 1 then peekFailure c .recursionLimitExceeded
    else
      match nextItem c.advance true with
      | .error e => .error e
      | .ok (false, c1) => complaint (pastSeq c1) (.missingField "kind")
      | .ok (true, c1) =>
        match variantName kindNames c1 with
        | .error e => .error e
        | .ok (kind, c2) =>
          match taggedItems (depth - 1) (budget c2) [] c2 with
          | .error e => .error e
          | .ok (items, c3) =>
            match closeSeq c3 with
            | .error e => .error e
            | .ok c4 => fields kind (.inr items) c4
  | _ => wrongKind c "internally tagged enum Predicate"

/-- Reads a query model. -/
def query (depth : Nat) : Reader Query :=
  record "struct QueryModel"
    [textField "table" true, maybeTextField "alias",
     ⟨"predicates", false, fun d => Reader.map Part.predicates (list predicate d)⟩,
     ⟨"joins", false, fun d => Reader.map Part.joins (list join d)⟩,
     ⟨"group_by", false, fun d => Reader.map Part.names (list (fun _ => JsonText.string) d)⟩,
     ⟨"order_by", false, fun d => Reader.map Part.orderKeys (list orderKey d)⟩,
     ⟨"aggregates", false, fun d => Reader.map Part.aggregates (list aggregate d)⟩]
    (fun seen => do
      let table ← need seen "table" Part.text?
      .ok ⟨table, (lookup seen "alias" Part.maybeText?).getD none,
        (lookup seen "predicates" Part.predicates?).getD [], (lookup seen "joins" Part.joins?).getD [],
        (lookup seen "group_by" Part.names?).getD [], (lookup seen "order_by" Part.orderKeys?).getD [],
        (lookup seen "aggregates" Part.aggregates?).getD []⟩)
    depth

end QueryText

/-- Reads the text of a query model: the first fault of the text or complaint about the
model, in words with its line and column. -/
def Query.read (text : String) : Except String Query :=
  match JsonText.run QueryText.query text with
  | .ok q => .ok q
  | .error f => .error (f.describe text)

end QueryAdvisor
