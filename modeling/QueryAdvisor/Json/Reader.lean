import QueryAdvisor.Json.Basic
import QueryAdvisor.Decimal.Reader
/-!
# Reading JSON text

The reader takes a text to a `Json` document and a `Span` tree that says where each value
stands in the text, as byte offsets, so that a later complaint about a value can name its line
and column. It stops at the first fault, with the fault's kind and its offset.

The grammar is the JSON grammar. An integer without point or exponent is a non-negative
integer while it fits 64 bits, a negative integer while it fits 64 signed bits, and a float
otherwise; `-0` is the float negative zero. Other numbers are rounded to the nearest double,
and one too large for a double is a fault. Strings may not hold control characters, and
escaped surrogates must come in pairs. Containers nest at most 127 deep.

Offsets of faults follow one rule: the text is read byte by byte, so a fault found on a
character, whether looked at or taken, is placed one byte past that character's first byte,
and a fault found after taking characters is placed after them.
-/

namespace QueryAdvisor

namespace Json

/-- Where a value stands in a text: its first byte, the byte after it, and for an object the
byte after each key and the places of its members' values. -/
inductive Span where
  | mk (start stop : Nat) (keyStops : List Nat) (parts : List Span)

/-- The first byte of the value. -/
def Span.start : Span → Nat
  | .mk s _ _ _ => s

/-- The byte after the value. -/
def Span.stop : Span → Nat
  | .mk _ s _ _ => s

/-- The places of the items or member values. -/
def Span.parts : Span → List Span
  | .mk _ _ _ p => p

/-- The byte after each key of an object. -/
def Span.keyStops : Span → List Nat
  | .mk _ _ k _ => k

/-- The kinds of fault in a JSON text. -/
inductive Fault where
  | eofValue
  | eofList
  | eofObject
  | eofString
  | expectedColon
  | expectedListCommaOrEnd
  | expectedObjectCommaOrEnd
  | expectedIdent
  | expectedValue
  | invalidEscape
  | invalidNumber
  | numberOutOfRange
  | controlCharacter
  | keyMustBeAString
  | loneSurrogate
  | trailingComma
  | trailingCharacters
  | unexpectedEndOfHexEscape
  | recursionLimitExceeded
deriving Repr, DecidableEq

/-- The words for a fault. -/
def Fault.message : Fault → String
  | .eofValue => "EOF while parsing a value"
  | .eofList => "EOF while parsing a list"
  | .eofObject => "EOF while parsing an object"
  | .eofString => "EOF while parsing a string"
  | .expectedColon => "expected `:`"
  | .expectedListCommaOrEnd => "expected `,` or `]`"
  | .expectedObjectCommaOrEnd => "expected `,` or `\x7d`"
  | .expectedIdent => "expected ident"
  | .expectedValue => "expected value"
  | .invalidEscape => "invalid escape"
  | .invalidNumber => "invalid number"
  | .numberOutOfRange => "number out of range"
  | .controlCharacter => "control character (\\u0000-\\u001F) found while parsing a string"
  | .keyMustBeAString => "key must be a string"
  | .loneSurrogate => "lone leading surrogate in hex escape"
  | .trailingComma => "trailing comma"
  | .trailingCharacters => "trailing characters"
  | .unexpectedEndOfHexEscape => "unexpected end of hex escape"
  | .recursionLimitExceeded => "recursion limit exceeded"

/-- A fault and the byte offset it is placed at. -/
structure SyntaxError where
  fault : Fault
  offset : Nat

/-- The rest of a text and the byte offset where it starts. -/
structure Cursor where
  rest : List Char
  pos : Nat
  /-- The byte length of the whole text. -/
  size : Nat

/-- The cursor after one character. -/
def Cursor.advance (c : Cursor) : Cursor :=
  match c.rest with
  | [] => c
  | x :: r => { c with rest := r, pos := c.pos + x.utf8Size }

/-- A fault found on the character looked at: placed one byte past its start. -/
def Cursor.peekFault {α : Type} (c : Cursor) (f : Fault) : Except SyntaxError α :=
  .error ⟨f, min c.size (c.pos + 1)⟩

/-- A fault found after taking characters: placed at the cursor. -/
def Cursor.fault {α : Type} (c : Cursor) (f : Fault) : Except SyntaxError α :=
  .error ⟨f, c.pos⟩

/-- Skips blanks: space, line feed, tab and carriage return. -/
def skipBlanks (rest : List Char) (pos : Nat) : List Char × Nat :=
  match rest with
  | ' ' :: r | '\n' :: r | '\t' :: r | '\r' :: r => skipBlanks r (pos + 1)
  | r => (r, pos)

/-- The cursor after blanks. -/
def Cursor.blanks (c : Cursor) : Cursor :=
  let (r, p) := skipBlanks c.rest c.pos
  { c with rest := r, pos := p }

/-- The character looked at, if any. -/
def Cursor.peek (c : Cursor) : Option Char := c.rest.head?

/-- Takes the letters of a keyword after its first letter. -/
def Cursor.keyword (c : Cursor) : List Char → Except SyntaxError Cursor
  | [] => .ok c
  | x :: more =>
    match c.rest with
    | [] => c.fault .eofValue
    | y :: _ => if x = y then c.advance.keyword more else c.peekFault .expectedIdent

/-- Takes decimal digits. -/
def Cursor.digits (c : Cursor) : List Char × Cursor :=
  let ds := c.rest.takeWhile Char.isDigit
  (ds, { c with rest := c.rest.drop ds.length, pos := c.pos + ds.length })

/-- The float of a decimal read from JSON text, or the fault of one too large. -/
def floatOf (c : Cursor) (negative : Bool) (d : Decimal.Dec) : Except SyntaxError Number :=
  let x := d.toFloat negative
  if x.isInf then c.fault .numberOutOfRange else .ok (.float x)

/-- An integer without point or exponent, by the size of its digits. -/
def integerOf (negative : Bool) (n : Nat) : Number :=
  if negative then
    if n = 0 then .float (-0.0)
    else if n ≤ Nat.pow 2 63 then .neg (-(n : Int))
    else .float (Decimal.Dec.toFloat true ⟨n, 0⟩)
  else if n < Nat.pow 2 64 then .nat n
  else .float (Decimal.Dec.toFloat false ⟨n, 0⟩)

/-- The integer part of a number that starts with the digit `x`: a lone zero, or a run of
digits. -/
def Cursor.integerPart (c : Cursor) (x : Char) : List Char × Cursor :=
  if x = '0' then (['0'], c.advance) else c.digits

/-- The fraction of a number after its integer part: a point and at least one digit, or
nothing when no point follows. -/
def Cursor.fractionPart (c1 : Cursor) : Except SyntaxError (List Char × Cursor) :=
  match c1.peek with
  | some '.' =>
    let (fs, c2) := c1.advance.digits
    if fs.isEmpty then
      match c2.peek with
      | none => c2.peekFault .eofValue
      | some _ => c2.peekFault .invalidNumber
    else .ok (fs, c2)
  | _ => .ok ([], c1)

/-- The sign of an exponent, taken if one stands there: whether it is negative. -/
def Cursor.exponentSign (c3 : Cursor) : Bool × Cursor :=
  match c3.peek with
  | some '+' => (false, c3.advance)
  | some '-' => (true, c3.advance)
  | _ => (false, c3)

/-- The exponent of a number after its `e`: a sign, then at least one digit. -/
def Cursor.exponentPart (c3 : Cursor) : Except SyntaxError (Int × Cursor) :=
  let (negExp, c4) := c3.exponentSign
  match c4.rest with
  | [] => c4.fault .eofValue
  | y :: _ =>
    if !y.isDigit then c4.peekFault .invalidNumber
    else
      let (es, c5) := c4.digits
      let e : Int := Decimal.digitsValue es
      .ok (if negExp then -e else e, c5)

/-- Reads a number whose sign, if any, is already taken. -/
def Cursor.number (c : Cursor) (negative : Bool) : Except SyntaxError (Number × Cursor) :=
  match c.rest with
  | [] => c.fault .eofValue
  | x :: _ =>
    if !x.isDigit then c.peekFault .invalidNumber
    else
      let (whole, c1) := c.integerPart x
      if x = '0' && (c1.peek.map Char.isDigit).getD false then c1.peekFault .invalidNumber
      else
        match c1.fractionPart with
        | .error e => .error e
        | .ok (fs, c2) =>
          let sig := Decimal.digitsValue (whole ++ fs)
          let shift : Int := -(fs.length : Int)
          match c2.peek with
          | some 'e' | some 'E' =>
            match c2.advance.exponentPart with
            | .error e => .error e
            | .ok (e, c5) => (floatOf c5 negative ⟨sig, shift + e⟩).map (·, c5)
          | _ =>
            if fs.isEmpty && c2.pos = c1.pos then .ok (integerOf negative (Decimal.digitsValue whole), c2)
            else (floatOf c2 negative ⟨sig, shift⟩).map (·, c2)

/-- The value of a hexadecimal digit. -/
def hexValue (c : Char) : Option Nat :=
  if c.isDigit then some (c.toNat - 48)
  else if 'a' ≤ c && c ≤ 'f' then some (c.toNat - 87)
  else if 'A' ≤ c && c ≤ 'F' then some (c.toNat - 55)
  else none

/-- Reads the four hexadecimal digits of an escape. The digits are four bytes: when fewer are
left the string ends too soon, and when they are not all hexadecimal digits the fault stands
after those four bytes, even where they cut a character. -/
def Cursor.hex4 (c : Cursor) : Except SyntaxError (Nat × Cursor) :=
  let digits : Option Nat :=
    match c.rest with
    | a :: b :: d :: e :: _ =>
      match hexValue a, hexValue b, hexValue d, hexValue e with
      | some w, some x, some y, some z => some (w * 4096 + x * 256 + y * 16 + z)
      | _, _, _, _ => none
    | _ => none
  match digits with
  | some n => .ok (n, { c with rest := c.rest.drop 4, pos := c.pos + 4 })
  | none =>
    if c.pos + 4 ≤ c.size then .error ⟨.invalidEscape, c.pos + 4⟩
    else ({ c with rest := [], pos := c.size } : Cursor).fault .eofString

/-- Reads what follows `\u`: one code unit, or a surrogate pair written as two escapes. -/
def Cursor.unicodeEscape (c : Cursor) : Except SyntaxError (Char × Cursor) := do
  let (n, c1) ← c.hex4
  if 0xDC00 ≤ n && n ≤ 0xDFFF then c1.fault .loneSurrogate
  else if n < 0xD800 || 0xDBFF < n then .ok (Char.ofNat n, c1)
  else
    match c1.rest with
    | [] => c1.fault .eofString
    | '\\' :: _ =>
      let c2 := c1.advance
      match c2.rest with
      | [] => c2.fault .eofString
      | 'u' :: _ =>
        let (m, c3) ← c2.advance.hex4
        if m < 0xDC00 || 0xDFFF < m then c3.fault .loneSurrogate
        else .ok (Char.ofNat (((n - 0xD800) * 1024 + (m - 0xDC00)) + 0x10000), c3)
      | _ => c2.peekFault .unexpectedEndOfHexEscape
    | _ => c1.peekFault .unexpectedEndOfHexEscape

/-- Reads the characters of a string after its opening quote, up to and with the closing
quote. -/
def Cursor.stringBody (c : Cursor) (acc : List Char) (fuel : Nat) : Except SyntaxError (String × Cursor) :=
  match fuel with
  | 0 => c.fault .eofString
  | fuel + 1 =>
    match c.rest with
    | [] => c.fault .eofString
    | '"' :: _ => .ok (String.ofList acc.reverse, c.advance)
    | '\\' :: _ =>
      let c1 := c.advance
      match c1.rest with
      | [] => c1.fault .eofString
      | e :: _ =>
        let c2 := c1.advance
        let simple (x : Char) := c2.stringBody (x :: acc) fuel
        match e with
        | '"' => simple '"'
        | '\\' => simple '\\'
        | '/' => simple '/'
        | 'b' => simple (Char.ofNat 8)
        | 'f' => simple (Char.ofNat 12)
        | 'n' => simple '\n'
        | 'r' => simple '\r'
        | 't' => simple '\t'
        | 'u' =>
          match c2.unicodeEscape with
          | .ok (x, c3) => c3.stringBody (x :: acc) fuel
          | .error err => .error err
        | _ => c1.peekFault .invalidEscape
    | x :: _ =>
      if x.toNat < 32 then c.advance.fault .controlCharacter
      else c.advance.stringBody (x :: acc) fuel

/-- Reads a string after its opening quote. Every character takes at least one byte, so the
bytes left bound the steps. -/
def Cursor.string (c : Cursor) : Except SyntaxError (String × Cursor) :=
  c.stringBody [] (c.size - c.pos + 1)

mutual

/-- Reads one value after blanks; `depth` is how many more containers may open. -/
def Cursor.value (fuel depth : Nat) (c0 : Cursor) : Except SyntaxError (Json × Span × Cursor) :=
  match fuel with
  | 0 => c0.fault .recursionLimitExceeded
  | fuel + 1 =>
    let c := c0.blanks
    let leaf (j : Json) (after : Cursor) : Except SyntaxError (Json × Span × Cursor) :=
      .ok (j, .mk c.pos after.pos [] [], after)
    match c.rest with
    | [] => c.peekFault .eofValue
    | x :: _ =>
      match x with
      | 'n' => do let after ← c.advance.keyword ['u', 'l', 'l']; leaf .null after
      | 't' => do let after ← c.advance.keyword ['r', 'u', 'e']; leaf (.bool true) after
      | 'f' => do let after ← c.advance.keyword ['a', 'l', 's', 'e']; leaf (.bool false) after
      | '-' => do let (n, after) ← c.advance.number true; leaf (.number n) after
      | '"' => do let (s, after) ← c.advance.string; leaf (.string s) after
      | '[' =>
        if depth ≤ 1 then c.peekFault .recursionLimitExceeded
        else do
          let (items, spans, after) ← Cursor.items fuel (depth - 1) c.advance true [] []
          .ok (.array items, .mk c.pos after.pos [] spans, after)
      | '{' =>
        if depth ≤ 1 then c.peekFault .recursionLimitExceeded
        else do
          let (members, keys, spans, after) ← Cursor.members fuel (depth - 1) c.advance true [] [] []
          .ok (.object members, .mk c.pos after.pos keys spans, after)
      | _ =>
        if x.isDigit then do let (n, after) ← c.number false; leaf (.number n) after
        else c.peekFault .expectedValue

/-- Reads the items of an array after its opening bracket, up to and with the closing
bracket. -/
def Cursor.items (fuel depth : Nat) (c0 : Cursor) (first : Bool) (acc : List Json) (spans : List Span) :
    Except SyntaxError (List Json × List Span × Cursor) :=
  match fuel with
  | 0 => c0.fault .recursionLimitExceeded
  | fuel + 1 =>
    let c := c0.blanks
    match c.rest with
    | [] => c.peekFault .eofList
    | ']' :: _ => .ok (acc.reverse, spans.reverse, c.advance)
    | x :: _ =>
      let start : Except SyntaxError Cursor :=
        if x = ',' && !first then
          let c1 := c.advance.blanks
          match c1.rest with
          | [] => c1.peekFault .eofValue
          | ']' :: _ => c1.peekFault .trailingComma
          | _ => .ok c1
        else if first then .ok c
        else c.peekFault .expectedListCommaOrEnd
      match start with
      | .error e => .error e
      | .ok c1 =>
        match Cursor.value fuel depth c1 with
        | .error e => .error e
        | .ok (j, s, after) => Cursor.items fuel depth after false (j :: acc) (s :: spans)

/-- Reads the members of an object after its opening brace, up to and with the closing
brace. -/
def Cursor.members (fuel depth : Nat) (c0 : Cursor) (first : Bool) (acc : List (String × Json))
    (keys : List Nat) (spans : List Span) :
    Except SyntaxError (List (String × Json) × List Nat × List Span × Cursor) :=
  match fuel with
  | 0 => c0.fault .recursionLimitExceeded
  | fuel + 1 =>
    let c := c0.blanks
    match c.rest with
    | [] => c.peekFault .eofObject
    | '}' :: _ => .ok (acc.reverse, keys.reverse, spans.reverse, c.advance)
    | x :: _ =>
      let start : Except SyntaxError Cursor :=
        if x = ',' && !first then .ok c.advance.blanks
        else if first then .ok c
        else c.peekFault .expectedObjectCommaOrEnd
      match start with
      | .error e => .error e
      | .ok c1 =>
        match c1.rest with
        | [] => c1.peekFault .eofValue
        | '}' :: _ => c1.peekFault .trailingComma
        | '"' :: _ =>
          match c1.advance.string with
          | .error e => .error e
          | .ok (key, afterKey) =>
            let c2 := afterKey.blanks
            match c2.rest with
            | [] => c2.peekFault .eofObject
            | ':' :: _ =>
              match Cursor.value fuel depth c2.advance with
              | .error e => .error e
              | .ok (j, s, after) =>
                Cursor.members fuel depth after false ((key, j) :: acc) (afterKey.pos :: keys) (s :: spans)
            | _ => c2.peekFault .expectedColon
        | _ => c1.peekFault .keyMustBeAString

end

/-- Reads a whole text as one JSON document, with the places of its values. -/
def readWithSpans (text : String) : Except SyntaxError (Json × Span) :=
  let c : Cursor := ⟨text.toList, 0, text.utf8ByteSize⟩
  match Cursor.value (2 * text.length + 2) 128 c with
  | .error e => .error e
  | .ok (j, s, after) =>
    let rest := after.blanks
    match rest.rest with
    | [] => .ok (j, s)
    | _ => rest.peekFault .trailingCharacters

/-- Reads a whole text as one JSON document. -/
def read (text : String) : Except SyntaxError Json :=
  (readWithSpans text).map (·.1)

/-- The line and column of a byte offset: lines count from one, columns are the bytes before
the offset on its line. -/
def lineColumn (text : String) (offset : Nat) : Nat × Nat :=
  let bytes := text.toUTF8.toList.take offset
  let line := 1 + (bytes.filter (· == 10)).length
  let column := (bytes.reverse.takeWhile (· != 10)).length
  (line, column)

/-- A fault in words, with the line and column where it stands. -/
def SyntaxError.describe (e : SyntaxError) (text : String) : String :=
  let (line, column) := lineColumn text e.offset
  e.fault.message ++ " at line " ++ toString line ++ " column " ++ toString column

end Json

end QueryAdvisor
