import QueryAdvisor.Json.Decode
/-!
# Reading typed values from JSON text as it is read

A `JsonText.Reader` reads a typed value straight from the text, front to back, and stops at the
first thing wrong, whether the text breaks the grammar or the value is of the wrong kind. So
what is reported is the first fault met in reading order: a member of the wrong kind early in
an object is reported even if the object is never closed.

Where a complaint stands follows two rules.

* A reader that meets a value of the wrong kind reads it if it is a scalar and places the
  complaint after it; a container is not entered and the complaint stands before it.
* A complaint found with no place of its own (a missing or repeated field, a sequence too
  short, a field of a buffered value) is open: it keeps the place where the reader stood. The
  reader of the container around it then reads the container's end as far as it goes, blanks
  and the closing bracket, or for a sequence a comma and the blanks after it, and places the
  complaint there.

Members whose key no field has are skipped by a lenient reader: it checks the grammar of
numbers and strings but not their size or the surrogates of escapes, and a comma may close a
container.

Containers nest at most 127 deep, counted from the outermost.
-/

namespace QueryAdvisor

namespace JsonText

open Json

/-- A failure of a reader: a fault or complaint placed at a byte, or a complaint still open,
with the place where the reader stood when it was found. -/
inductive Failure where
  | placed (message : String) (offset : Nat)
  | pending (problem : Problem) (place : Cursor)

namespace Failure

/-- A fault of the text. -/
def ofSyntax (e : SyntaxError) : Failure := .placed e.fault.message e.offset

/-- The byte where a failure stands; an open one stands where it was found. -/
def offset : Failure → Nat
  | .placed _ o => o
  | .pending _ c => c.pos

/-- The words of a failure. -/
def message : Failure → String
  | .placed m _ => m
  | .pending p _ => p.message

/-- A failure in words, with the line and column where it stands in `text`. -/
def describe (f : Failure) (text : String) : String :=
  let (line, column) := lineColumn text f.offset
  f.message ++ " at line " ++ toString line ++ " column " ++ toString column

end Failure

/-- A reader of a value of type `α` from a place in a text: the value and the place after it. -/
abbrev Reader (α : Type) := Cursor → Except Failure (α × Cursor)

/-- A fault of the text, from the strict reader. -/
def liftSyntax {α : Type} (r : Except SyntaxError α) : Except Failure α :=
  match r with
  | .ok x => .ok x
  | .error e => .error (.ofSyntax e)

/-- A fault found on the character looked at: placed one byte past its start. -/
def peekFailure {α : Type} (c : Cursor) (f : Fault) : Except Failure α :=
  .error (.placed f.message (min c.size (c.pos + 1)))

/-- A fault found after taking characters: placed at the reader. -/
def failure {α : Type} (c : Cursor) (f : Fault) : Except Failure α :=
  .error (.placed f.message c.pos)

/-- A complaint placed at the reader. -/
def complaint {α : Type} (c : Cursor) (p : Problem) : Except Failure α :=
  .error (.placed p.message c.pos)

/-- The complaint about a value of another kind than `expected`, at a place after blanks: a
scalar is read and the complaint stands after it; a container is not entered and the
complaint stands before it; anything else is no value. -/
def wrongKind {α : Type} (c : Cursor) (expected : String) : Except Failure α :=
  let after (f : Found) (r : Except SyntaxError Cursor) : Except Failure α :=
    match r with
    | .ok c' => complaint c' (.invalidType f expected)
    | .error e => .error (.ofSyntax e)
  let number (negative : Bool) (start : Cursor) : Except Failure α :=
    match start.number negative with
    | .ok (n, c') => complaint c' (.invalidType (Json.number n).found expected)
    | .error e => .error (.ofSyntax e)
  match c.rest with
  | 'n' :: _ => after .null (c.advance.keyword ['u', 'l', 'l'])
  | 't' :: _ => after (.bool true) (c.advance.keyword ['r', 'u', 'e'])
  | 'f' :: _ => after (.bool false) (c.advance.keyword ['a', 'l', 's', 'e'])
  | '-' :: _ => number true c.advance
  | '"' :: _ =>
    match c.advance.string with
    | .ok (s, c') => complaint c' (.invalidType (.string s) expected)
    | .error e => .error (.ofSyntax e)
  | '[' :: _ => complaint c (.invalidType .sequence expected)
  | '{' :: _ => complaint c (.invalidType .map expected)
  | x :: _ => if x.isDigit then number false c else peekFailure c .expectedValue
  | [] => peekFailure c .expectedValue

/-- Reads a string. -/
def string : Reader String := fun c0 =>
  let c := c0.blanks
  match c.rest with
  | [] => peekFailure c .eofValue
  | '"' :: _ => liftSyntax c.advance.string
  | _ => wrongKind c "a string"

/-- Reads a boolean. -/
def bool : Reader Bool := fun c0 =>
  let c := c0.blanks
  match c.rest with
  | [] => peekFailure c .eofValue
  | 't' :: _ => liftSyntax ((c.advance.keyword ['r', 'u', 'e']).map (true, ·))
  | 'f' :: _ => liftSyntax ((c.advance.keyword ['a', 'l', 's', 'e']).map (false, ·))
  | _ => wrongKind c "a boolean"

/-- Reads an optional value: `null` is none. -/
def optional {α : Type} (read : Reader α) : Reader (Option α) := fun c0 =>
  let c := c0.blanks
  match c.rest with
  | 'n' :: _ => liftSyntax ((c.advance.keyword ['u', 'l', 'l']).map (none, ·))
  | _ =>
    match read c with
    | .ok (x, c') => .ok (some x, c')
    | .error e => .error e

/-- Reads a value and changes it with `f`. -/
def Reader.map {α β : Type} (f : α → β) (read : Reader α) : Reader β := fun c =>
  match read c with
  | .ok (x, c') => .ok (f x, c')
  | .error e => .error e

/-- Whether another item follows in a sequence, after blanks and, unless it is the first, the
comma before it: the place of the item, or of the closing bracket, which is not taken. -/
def nextItem (c0 : Cursor) (first : Bool) : Except Failure (Bool × Cursor) :=
  let c := c0.blanks
  match c.rest with
  | [] => peekFailure c .eofList
  | ']' :: _ => .ok (false, c)
  | x :: _ =>
    if first then .ok (true, c)
    else if x = ',' then
      let c1 := c.advance.blanks
      match c1.rest with
      | ']' :: _ => peekFailure c1 .trailingComma
      | [] => peekFailure c1 .eofValue
      | _ => .ok (true, c1)
    else peekFailure c .expectedListCommaOrEnd

/-- Whether another member follows in a map, after blanks and, unless it is the first, the
comma before it: the place of its key, or of the closing brace, which is not taken. -/
def nextKey (c0 : Cursor) (first : Bool) : Except Failure (Bool × Cursor) :=
  let c := c0.blanks
  match c.rest with
  | [] => peekFailure c .eofObject
  | '}' :: _ => .ok (false, c)
  | x :: _ =>
    if first then
      if x = '"' then .ok (true, c) else peekFailure c .keyMustBeAString
    else if x = ',' then
      let c1 := c.advance.blanks
      match c1.rest with
      | '"' :: _ => .ok (true, c1)
      | '}' :: _ => peekFailure c1 .trailingComma
      | [] => peekFailure c1 .eofValue
      | _ => peekFailure c1 .keyMustBeAString
    else peekFailure c .expectedObjectCommaOrEnd

/-- The colon after a key, after blanks. -/
def colon (c0 : Cursor) : Except Failure Cursor :=
  let c := c0.blanks
  match c.rest with
  | ':' :: _ => .ok c.advance
  | [] => peekFailure c .eofObject
  | _ => peekFailure c .expectedColon

/-- The place after the end of a map as far as it goes: blanks, and the closing brace if it
stands there. -/
def pastMap (c0 : Cursor) : Cursor :=
  let c := c0.blanks
  match c.rest with
  | '}' :: _ => c.advance
  | _ => c

/-- The end of a map: blanks and the closing brace. -/
def closeMap (c0 : Cursor) : Except Failure Cursor :=
  let c := c0.blanks
  match c.rest with
  | '}' :: _ => .ok c.advance
  | ',' :: _ => peekFailure c .trailingComma
  | [] => peekFailure c .eofObject
  | _ => peekFailure c .trailingCharacters

/-- The place after the end of a sequence as far as it goes: blanks, then the closing bracket,
or a comma and the blanks after it. -/
def pastSeq (c0 : Cursor) : Cursor :=
  let c := c0.blanks
  match c.rest with
  | ']' :: _ => c.advance
  | ',' :: _ => c.advance.blanks
  | _ => c

/-- The end of a sequence: blanks and the closing bracket. -/
def closeSeq (c0 : Cursor) : Except Failure Cursor :=
  let c := c0.blanks
  match c.rest with
  | ']' :: _ => .ok c.advance
  | ',' :: _ =>
    let c1 := c.advance.blanks
    match c1.rest with
    | ']' :: _ => peekFailure c1 .trailingComma
    | _ => peekFailure c1 .trailingCharacters
  | [] => peekFailure c .eofList
  | _ => peekFailure c .trailingCharacters

/-- Reads a container that opens at the reader: `visit` reads between the brackets with one
level of nesting less, `past` and `close` read its end. An open complaint of the visit is
placed after the end, as far as the end goes. -/
def within {α : Type} (depth : Nat) (visit : Nat → Reader α) (past : Cursor → Cursor)
    (close : Cursor → Except Failure Cursor) : Reader α := fun c =>
  if depth ≤ 1 then peekFailure c .recursionLimitExceeded
  else
    match visit (depth - 1) c.advance with
    | .ok (x, c1) =>
      match close c1 with
      | .ok c2 => .ok (x, c2)
      | .error e => .error e
    | .error (.pending p stop) => complaint (past stop) p
    | .error e => .error e

/-- Reads the items of a sequence with `read`, up to the closing bracket, which is not taken;
`fuel` bounds the items. -/
def items {α : Type} (read : Reader α) : Nat → Bool → List α → Reader (List α)
  | 0, _, acc => fun c => .ok (acc.reverse, c)
  | fuel + 1, first, acc => fun c =>
    match nextItem c first with
    | .error e => .error e
    | .ok (false, c1) => .ok (acc.reverse, c1)
    | .ok (true, c1) =>
      match read c1 with
      | .error e => .error e
      | .ok (x, c2) => items read fuel false (x :: acc) c2

/-- The bytes left to read, which bound the steps of a loop that takes one at least. -/
def budget (c : Cursor) : Nat := c.size - c.pos + 1

/-- Reads a sequence of values, each with `read` at the nesting left. -/
def list {α : Type} (read : Nat → Reader α) (depth : Nat) : Reader (List α) := fun c0 =>
  let c := c0.blanks
  match c.rest with
  | [] => peekFailure c .eofValue
  | '[' :: _ => within depth (fun d c1 => items (read d) (budget c1) true [] c1) pastSeq closeSeq c
  | _ => wrongKind c "a sequence"

/-- Reads the name of a variant: a string among the names, each with the index of its
variant. -/
def variantName (names : List (String × Nat)) : Reader Nat := fun c0 =>
  let c := c0.blanks
  match c.rest with
  | [] => peekFailure c .eofValue
  | '"' :: _ =>
    match c.advance.string with
    | .error e => .error (.ofSyntax e)
    | .ok (s, c1) =>
      match names.find? (·.1 == s) with
      | some (_, i) => .ok (i, c1)
      | none => complaint c1 (.unknownVariant s (names.map (·.1)))
  | _ => wrongKind c "variant identifier"

/-- Reads `null`, the content of a unit variant. -/
def unit : Reader Unit := fun c0 =>
  let c := c0.blanks
  match c.rest with
  | [] => peekFailure c .eofValue
  | 'n' :: _ => liftSyntax ((c.advance.keyword ['u', 'l', 'l']).map ((), ·))
  | _ => wrongKind c "unit"

/-- Reads a variant without content: its name as a string, or a map from its name to
`null`. Anything else is no value. -/
def unitVariant (names : List (String × Nat)) (depth : Nat) : Reader Nat := fun c0 =>
  let c := c0.blanks
  match c.rest with
  | [] => peekFailure c .eofValue
  | '"' :: _ => variantName names c
  | '{' :: _ =>
    if depth ≤ 1 then peekFailure c .recursionLimitExceeded
    else
      match variantName names c.advance with
      | .error e => .error e
      | .ok (i, c1) =>
        match (colon c1).bind unit with
        | .error e => .error e
        | .ok ((), c2) =>
          let c3 := c2.blanks
          match c3.rest with
          | '}' :: _ => .ok (i, c3.advance)
          | [] => failure c3 .eofObject
          | _ => failure c3 .expectedValue
  | _ => peekFailure c .expectedValue

/-- Skips the exponent of a number, at its `e`: a sign, then digits. -/
def skipExponent (c : Cursor) : Except Failure Cursor :=
  let c1 := c.advance
  let c2 := match c1.rest with
    | '+' :: _ | '-' :: _ => c1.advance
    | _ => c1
  match c2.rest with
  | d :: _ => if d.isDigit then .ok c2.digits.2 else peekFailure c2 .invalidNumber
  | [] => failure c2 .invalidNumber

/-- Skips the fraction and exponent of a number, if any, after its integer part. -/
def skipFraction (c : Cursor) : Except Failure Cursor :=
  match c.rest with
  | '.' :: _ =>
    let (ds, c1) := c.advance.digits
    if ds.isEmpty then peekFailure c1 .invalidNumber
    else
      match c1.rest with
      | 'e' :: _ | 'E' :: _ => skipExponent c1
      | _ => .ok c1
  | 'e' :: _ | 'E' :: _ => skipExponent c
  | _ => .ok c

/-- Skips a number after its sign: its grammar is checked, not its size. -/
def skipNumber (c : Cursor) : Except Failure Cursor :=
  match c.rest with
  | '0' :: _ =>
    let c1 := c.advance
    match c1.rest with
    | d :: _ => if d.isDigit then peekFailure c1 .invalidNumber else skipFraction c1
    | [] => .ok c1
  | d :: _ =>
    if d.isDigit then skipFraction c.digits.2
    else peekFailure c .invalidNumber
  | [] => failure c .invalidNumber

/-- Skips the rest of a string after its opening quote: escapes must have their shape, but
the code units of `\u` escapes are not checked. -/
def skipString : Nat → Cursor → Except Failure Cursor
  | 0, c => failure c .eofString
  | fuel + 1, c =>
    match c.rest with
    | [] => failure c .eofString
    | '"' :: _ => .ok c.advance
    | '\\' :: _ =>
      let c1 := c.advance
      match c1.rest with
      | [] => failure c1 .eofString
      | e :: _ =>
        let c2 := c1.advance
        if e = 'u' then
          match c2.hex4 with
          | .ok (_, c3) => skipString fuel c3
          | .error err => .error (.ofSyntax err)
        else if ['"', '\\', '/', 'b', 'f', 'n', 'r', 't'].contains e then skipString fuel c2
        else peekFailure c1 .invalidEscape
    | x :: _ => if x.toNat < 32 then failure c .controlCharacter else skipString fuel c.advance

/-- Skips a scalar, or takes the bracket that opens a container: whether it opened a map or
a sequence, if either. -/
def skipStart (c0 : Cursor) : Except Failure (Option Bool × Cursor) :=
  let c := c0.blanks
  let scalar (r : Except Failure Cursor) : Except Failure (Option Bool × Cursor) := r.map (none, ·)
  match c.rest with
  | [] => peekFailure c .eofValue
  | 'n' :: _ => scalar (liftSyntax (c.advance.keyword ['u', 'l', 'l']))
  | 't' :: _ => scalar (liftSyntax (c.advance.keyword ['r', 'u', 'e']))
  | 'f' :: _ => scalar (liftSyntax (c.advance.keyword ['a', 'l', 's', 'e']))
  | '-' :: _ => scalar (skipNumber c.advance)
  | '"' :: _ => scalar (skipString (budget c) c.advance)
  | '[' :: _ => .ok (some false, c.advance)
  | '{' :: _ => .ok (some true, c.advance)
  | x :: _ => if x.isDigit then scalar (skipNumber c) else peekFailure c .expectedValue

/-- After a value inside the open containers, `true` for a map: takes the closing brackets
that follow, then a comma if one may stand there. Gives the container the next value is in,
with those around it, or none once the outermost one is closed. A container whose first
value is still to come (`accept` false) may be closed at once, and a comma may stand before a
closing bracket. -/
def skipEnds : Nat → Bool → Bool → List Bool → Cursor → Except Failure (Option (Bool × List Bool) × Cursor)
  | 0, _, frame, outer, c => .ok (some (frame, outer), c)
  | fuel + 1, accept, frame, outer, c0 =>
    let c := c0.blanks
    match c.rest with
    | [] => peekFailure c (if frame then .eofObject else .eofList)
    | x :: _ =>
      if x = ',' && accept then .ok (some (frame, outer), c.advance)
      else if (x = ']' && !frame) || (x = '}' && frame) then
        match outer with
        | [] => .ok (none, c.advance)
        | f :: rest => skipEnds fuel true f rest c.advance
      else if accept then peekFailure c (if frame then .expectedObjectCommaOrEnd else .expectedListCommaOrEnd)
      else .ok (some (frame, outer), c)

/-- The key and colon before a value in a map. -/
def skipKey (c0 : Cursor) : Except Failure Cursor :=
  let c := c0.blanks
  match c.rest with
  | '"' :: _ => (skipString (budget c) c.advance).bind colon
  | [] => peekFailure c .eofObject
  | _ => peekFailure c .keyMustBeAString

/-- Skips values inside open containers: `inner` is the innermost one, if it is not yet
among `outer`, the ones around it with the nearest first; `fuel` bounds the values. -/
def skipValues : Nat → Option Bool → List Bool → Cursor → Except Failure Cursor
  | 0, _, _, c => .ok c
  | fuel + 1, inner, outer, c =>
    match skipStart c with
    | .error e => .error e
    | .ok (opened, c1) =>
      let state : Option (Bool × Bool × List Bool) :=
        match opened, inner with
        | some f, _ => some (false, f, inner.toList ++ outer)
        | none, some f => some (true, f, outer)
        | none, none =>
          match outer with
          | f :: rest => some (true, f, rest)
          | [] => none
      match state with
      | none => .ok c1
      | some (accept, frame, around) =>
        match skipEnds (budget c1) accept frame around c1 with
        | .error e => .error e
        | .ok (none, c2) => .ok c2
        | .ok (some (frame, around), c2) =>
          if frame then
            match skipKey c2 with
            | .error e => .error e
            | .ok c3 => skipValues fuel (some frame) around c3
          else skipValues fuel (some frame) around c2

/-- Skips one value, checking its grammar leniently. -/
def skipValue (c : Cursor) : Except Failure Cursor := skipValues (budget c) none [] c

/-- A field of a record: its name, whether it must be present, and how its value is read at
a nesting depth. -/
structure RecordField (β : Type) where
  name : String
  required : Bool
  read : Nat → Reader β

/-- Reads the members of a record after its opening brace, up to its closing brace, which is
not taken: a known key once, its value with its field's reader; members of other keys are
skipped. A known key met again is an open complaint standing after that key. -/
def members {β : Type} (fields : List (RecordField β)) (depth : Nat) :
    Nat → Bool → List (String × β) → Reader (List (String × β))
  | 0, _, seen => fun c => .ok (seen, c)
  | fuel + 1, first, seen => fun c =>
    match nextKey c first with
    | .error e => .error e
    | .ok (false, c1) => .ok (seen, c1)
    | .ok (true, c1) =>
      match c1.advance.string with
      | .error e => .error (.ofSyntax e)
      | .ok (key, c2) =>
        match fields.find? (·.name == key) with
        | none =>
          match (colon c2).bind skipValue with
          | .error e => .error e
          | .ok c3 => members fields depth fuel false seen c3
        | some f =>
          if seen.any (·.1 == key) then .error (.pending (.duplicateField key) c2)
          else
            match colon c2 with
            | .error e => .error e
            | .ok c3 =>
              match f.read depth c3 with
              | .error e => .error e
              | .ok (v, c4) => members fields depth fuel false (seen ++ [(key, v)]) c4

/-- Reads the fields of a record given as a sequence, in their declared order, up to the
closing bracket, which is not taken. Once the items run out a field that must be present is
an open complaint naming how many items a record has; `index` counts the fields passed. -/
def positional {β : Type} (expected : String) (count depth : Nat) :
    List (RecordField β) → Nat → Bool → List (String × β) → Reader (List (String × β))
  | [], _, _, seen => fun c => .ok (seen, c)
  | f :: rest, index, first, seen => fun c =>
    match nextItem c first with
    | .error e => .error e
    | .ok (false, c1) =>
      if f.required then .error (.pending (.invalidLength index (withElements expected count)) c1)
      else positional expected count depth rest (index + 1) first seen c1
    | .ok (true, c1) =>
      match f.read depth c1 with
      | .error e => .error e
      | .ok (v, c2) => positional expected count depth rest (index + 1) false (seen ++ [(f.name, v)]) c2

/-- Reads a record named `expected` in complaints: a map of its fields, or a sequence of them
in order. `build` makes the value from the fields read, or names the first field missing,
which is an open complaint at the end of the record. -/
def record {α β : Type} (expected : String) (fields : List (RecordField β))
    (build : List (String × β) → Except Problem α) (depth : Nat) : Reader α := fun c0 =>
  let c := c0.blanks
  let finish (r : Except Failure (List (String × β) × Cursor)) : Except Failure (α × Cursor) :=
    match r with
    | .error e => .error e
    | .ok (seen, c1) =>
      match build seen with
      | .ok x => .ok (x, c1)
      | .error p => .error (.pending p c1)
  match c.rest with
  | [] => peekFailure c .eofValue
  | '{' :: _ => within depth (fun d c1 => finish (members fields d (budget c1) true [] c1)) pastMap closeMap c
  | '[' :: _ =>
    within depth (fun d c1 => finish (positional expected fields.length d fields 0 true [] c1)) pastSeq closeSeq c
  | _ => wrongKind c expected

/-- The value read for a field, if it was read, taken out by `pick`. -/
def lookup {α β : Type} (seen : List (String × β)) (name : String) (pick : β → Option α) : Option α :=
  (seen.find? (·.1 == name)).bind (fun s => pick s.2)

/-- The value of a field that must be present. -/
def need {α β : Type} (seen : List (String × β)) (name : String) (pick : β → Option α) : Except Problem α :=
  match lookup seen name pick with
  | some x => .ok x
  | none => .error (.missingField name)

/-- Reads a whole text with a reader at the outermost nesting: blanks may follow the value,
nothing else. -/
def run {α : Type} (read : Nat → Reader α) (text : String) : Except Failure α :=
  let c : Cursor := ⟨text.toList, 0, text.utf8ByteSize⟩
  match read 128 c with
  | .error e => .error e
  | .ok (x, c1) =>
    let c2 := c1.blanks
    match c2.rest with
    | [] => .ok x
    | _ => peekFailure c2 .trailingCharacters

end JsonText

end QueryAdvisor
