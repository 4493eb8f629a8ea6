import QueryAdvisor.Toml.Basic
import QueryAdvisor.Toml.Scalar
/-!
# Reading TOML text

The reader takes a text to the table of a TOML document, line by line: blank lines, comments,
table headers `[a.b]`, array headers `[[a.b]]`, and pairs `key = value`. Keys are bare
(letters, digits, `_` and `-`) or quoted, and a dotted key walks into tables. Values are
strings (basic, literal, and their multi-line forms), integers (decimal with a sign, or
hexadecimal, octal and binary), floats (with `inf` and `nan`), booleans, dates and times,
arrays, and inline tables.

A reader takes the longest value its grammar allows and leaves the rest of the line to the
line's end, which must be blanks, a comment and a newline: so `12ab` is the integer `12`
followed by a fault at `a`.

A fault names the byte where the grammar failed: a key that cannot start, a pair without its
`=`, a value that cannot start, a line that does not end, or a key given twice.
-/

namespace QueryAdvisor

namespace Toml

/-- The rest of a text and the byte offset where it starts. -/
structure Cursor where
  rest : List Char
  pos : Nat

/-- A reader of part of a text. -/
abbrev Reader := StateT Cursor (Except TomlFault)

/-- Splits off the longest front of a list whose characters pass a test; also gives the byte
offset after it. -/
def spanChars (p : Char → Bool) : List Char → Nat → List Char × List Char × Nat
  | [], pos => ([], [], pos)
  | c :: r, pos =>
    if p c then
      let (taken, rest, stop) := spanChars p r (pos + c.utf8Size)
      (c :: taken, rest, stop)
    else ([], c :: r, pos)

/-- Takes the characters that pass a test. -/
def takeWhile (p : Char → Bool) : Reader String := fun c =>
  let (taken, rest, pos) := spanChars p c.rest c.pos
  .ok (String.ofList taken, ⟨rest, pos⟩)

/-- The characters not yet read. -/
def ahead : Reader (List Char) := fun c => .ok (c.rest, c)

/-- The byte offset of the reader. -/
def here : Reader Nat := fun c => .ok (c.pos, c)

/-- Moves past one character. -/
def bump : Reader Unit := fun c =>
  match c.rest with
  | [] => .ok ((), c)
  | x :: r => .ok ((), ⟨r, c.pos + x.utf8Size⟩)

/-- Moves past a number of characters. -/
def bumpMany : Nat → Reader Unit
  | 0 => pure ()
  | n + 1 => do bump; bumpMany n

/-- A fault at the character the reader stands on. -/
def failHere {α : Type} (message : String) : Reader α := fun c =>
  .error ⟨c.pos, if c.rest.isEmpty then c.pos else c.pos + 1, message⟩

/-- A fault at a given byte. -/
def failAt {α : Type} (pos : Nat) (message : String) : Reader α := fun _ =>
  .error ⟨pos, pos + 1, message⟩

/-- The bytes of the character that starts at byte `target` of a list of characters whose
first byte is `pos`; none past the end. -/
def charBytesAt : List Char → Nat → Nat → Nat
  | [], _, _ => 0
  | c :: r, pos, target =>
    if pos = target then c.utf8Size
    else if target < pos then 0
    else charBytesAt r (pos + c.utf8Size) target

/-- Whether a character is a blank within a line. -/
def isBlankChar (c : Char) : Bool := c = ' ' || c = '\t'

/-- Whether a character may stand in a comment. -/
def isCommentChar (c : Char) : Bool := c = '\t' || (c.toNat ≥ 0x20 && c.toNat ≠ 0x7f)

/-- Whether a character may stand in a bare key. -/
def isBareKeyChar (c : Char) : Bool := c.isAlphanum || c = '_' || c = '-'

/-- Skips blanks within a line. -/
def blanks : Reader Unit := do let _ ← takeWhile isBlankChar

/-- Skips a comment, if one starts here. -/
def skipComment : Reader Unit := do
  match ← ahead with
  | '#' :: _ => do bump; let _ ← takeWhile isCommentChar
  | _ => pure ()

/-- The end of a line: blanks, perhaps a comment, then a newline or the end of the text. -/
def lineEnd : Reader Unit := do
  blanks
  skipComment
  match ← ahead with
  | [] => pure ()
  | '\n' :: _ => bump
  | '\r' :: '\n' :: _ => bumpMany 2
  | _ => failHere "expected newline, `#`"

/-- The value of hexadecimal digits. -/
def hexValue? (cs : List Char) : Option Nat :=
  cs.foldl (fun acc c =>
    acc.bind (fun n =>
      if c.isDigit then some (16 * n + (c.toNat - '0'.toNat))
      else if 'a' ≤ c && c ≤ 'f' then some (16 * n + (c.toNat - 'a'.toNat + 10))
      else if 'A' ≤ c && c ≤ 'F' then some (16 * n + (c.toNat - 'A'.toNat + 10))
      else none)) (some 0)

/-- The character of a code point given in hexadecimal, if it is a scalar value. -/
def codePoint? (cs : List Char) : Option Char :=
  (hexValue? cs).bind (fun n => if n < 0xD800 || (0xE000 ≤ n && n < 0x110000) then some (Char.ofNat n) else none)

/-- The words for a bad escape. -/
def badEscape : String :=
  "invalid escape sequence\nexpected `b`, `f`, `n`, `r`, `t`, `u`, `U`, `\\`, `\"`"

/-- Reads the `count` hexadecimal digits of an escape `\u` or `\U` whose letter ends at `pos`. -/
def hexEscape (count : Nat) (rest : List Char) (pos : Nat) : Reader Char :=
  let digits := rest.takeWhile (fun c => (hexValue? [c]).isSome) |>.take count
  let label := "invalid unicode " ++ toString count ++ "-digit hex code"
  if digits.length < count then failAt pos label
  else
    match codePoint? digits with
    | some c => do bumpMany (count + 1); pure c
    | none => failAt pos (label ++ "\nvalue is out of range")

/-- Reads an escape after its backslash: the character it stands for. An escape letter that is
not known is a fault just past its first byte, which is the start of the letter itself when it
takes more bytes; hexadecimal digits that are too few, or that name no character, are a fault
just past the `u`. A backslash that ends the text ends no escape: the string is `unfinished`
there. -/
def escape (unfinished : String) : Reader Char := do
  let start ← here
  match ← ahead with
  | 'b' :: _ => do bump; pure '\x08'
  | 't' :: _ => do bump; pure '\t'
  | 'n' :: _ => do bump; pure '\n'
  | 'f' :: _ => do bump; pure '\x0c'
  | 'r' :: _ => do bump; pure '\r'
  | '"' :: _ => do bump; pure '"'
  | '\\' :: _ => do bump; pure '\\'
  | 'u' :: rest => hexEscape 4 rest (start + 1)
  | 'U' :: rest => hexEscape 8 rest (start + 1)
  | c :: _ => failAt (if c.utf8Size = 1 then start + 1 else start) badEscape
  | [] => failAt (start - 1) unfinished

/-- Whether a character may stand in a string as it is. -/
def isStringChar (c : Char) : Bool := c = '\t' || (c.toNat ≥ 0x20 && c.toNat ≠ 0x7f)

/-- The body of a basic string after its opening quote, up to and past the closing one. -/
def basicBody : Nat → List Char → Reader String
  | 0, acc => pure (String.ofList acc.reverse)
  | fuel + 1, acc => do
    match ← ahead with
    | '"' :: _ => do bump; pure (String.ofList acc.reverse)
    | '\\' :: _ => do bump; let c ← escape "invalid basic string"; basicBody fuel (c :: acc)
    | c :: _ => if isStringChar c && c ≠ '"' then do bump; basicBody fuel (c :: acc)
                else failHere "invalid basic string"
    | [] => failHere "invalid basic string"

/-- The body of a literal string after its opening quote, up to and past the closing one. -/
def literalBody : Reader String := do
  let body ← takeWhile (fun c => isStringChar c && c ≠ '\'')
  match ← ahead with
  | '\'' :: _ => do bump; pure body
  | _ => failHere "invalid literal string"

/-- Skips the blanks and newlines after a backslash that ends a line. -/
def trimmedLineEnd (rest : List Char) : Option Nat :=
  let (_, after, _) := spanChars isBlankChar rest 0
  match after with
  | '\n' :: more | '\r' :: '\n' :: more =>
    let (gap, _, _) := spanChars (fun c => isBlankChar c || c = '\n' || c = '\r') more 0
    some (rest.length - more.length + gap.length)
  | _ => none

/-- The body of a multi-line string after its opening delimiter, up to and past the closing
one; `quote` is its quote character, and `escapes` whether backslashes escape. -/
def multiBody (quote : Char) (escapes : Bool) : Nat → List Char → Reader String
  | 0, acc => pure (String.ofList acc.reverse)
  | fuel + 1, acc => do
    let rest ← ahead
    let run := (rest.takeWhile (· = quote)).length
    if run ≥ 3 then
      let run := min run 5
      do bumpMany run; pure (String.ofList (List.replicate (run - 3) quote ++ acc).reverse)
    else if run > 0 then do bumpMany run; multiBody quote escapes fuel (List.replicate run quote ++ acc)
    else
      match rest with
      | '\\' :: more =>
        if !escapes then do bump; multiBody quote escapes fuel ('\\' :: acc)
        else
          match trimmedLineEnd more with
          | some n => do bumpMany (n + 1); multiBody quote escapes fuel acc
          | none => do bump; let c ← escape "invalid multiline basic string"; multiBody quote escapes fuel (c :: acc)
      | '\n' :: _ => do bump; multiBody quote escapes fuel ('\n' :: acc)
      | '\r' :: '\n' :: _ => do bumpMany 2; multiBody quote escapes fuel ('\n' :: acc)
      | c :: _ =>
        if isStringChar c then do bump; multiBody quote escapes fuel (c :: acc)
        else failHere ("invalid multiline " ++ if escapes then "basic string" else "literal string")
      | [] => failHere ("invalid multiline " ++ if escapes then "basic string" else "literal string")

/-- Reads a string of any of the four forms. -/
def quoted : Reader String := do
  let rest ← ahead
  match rest with
  | '"' :: '"' :: '"' :: _ => do
    bumpMany 3
    match ← ahead with
    | '\n' :: _ => bump
    | '\r' :: '\n' :: _ => bumpMany 2
    | _ => pure ()
    multiBody '"' true ((← ahead).length + 1) []
  | '\'' :: '\'' :: '\'' :: _ => do
    bumpMany 3
    match ← ahead with
    | '\n' :: _ => bump
    | '\r' :: '\n' :: _ => bumpMany 2
    | _ => pure ()
    multiBody '\'' false ((← ahead).length + 1) []
  | '"' :: _ => do bump; basicBody (rest.length + 1) []
  | _ => do bump; literalBody

/-- Reads a scalar with a grammar from the reader's place; gives it with the byte after it. -/
def scan {α : Type} (g : Grammar α) : Reader (α × Nat) := fun c =>
  match g c.rest 0 with
  | .read x rest u => .ok ((x, c.pos + u), ⟨rest, c.pos + u⟩)
  | .miss u k | .fail u k => .error ⟨c.pos + u, c.pos + u + 1, k.message⟩

/-- Reads a value that starts with a sign or a digit: a date or time, a float, or an integer. -/
def scalar (start : Nat) : Reader Toml := do
  let (s, stop) ← scan Grammar.scalar
  pure (match s with
    | .integer n => .integer n start stop
    | .float x => .float x start stop
    | .datetime text => .datetime text start stop)

/-- The words for a value that cannot start. -/
def badValue : String := "invalid string\nexpected `\"`, `'`"

/-- The name of a table path in a complaint. -/
def tableName (path : List String) : String :=
  if path.isEmpty then "document root" else "table `" ++ ".".intercalate path ++ "`"

/-- Changes the value of a key among entries; the key keeps the place it was first written at. -/
def setMember (entries : List (TomlKey × Toml)) (key : String) (v : Toml) : List (TomlKey × Toml) :=
  entries.map (fun m => if m.1.name == key then (m.1, v) else m)

/-- The complaint about a dotted key whose part `done ++ [k]` names a value that is no table. -/
def extendFault (pos : Nat) (done : List String) (k : String) (kind : String) : TomlFault :=
  ⟨pos, pos + 1, "dotted key `" ++ ".".intercalate (done ++ [k]) ++
    "` attempted to extend non-table type (" ++ kind ++ ")"⟩

/-- Changes the entries of the table at a header's path with `f`, walking into tables and into
the last table of arrays of tables, and making the missing tables on the way as implicit
ones; `done` is the part of the path already walked, for complaints at `pos`. -/
def descend (pos : Nat)
    (f : List String → List (TomlKey × Toml) → Except TomlFault (List (TomlKey × Toml))) :
    List String → List TomlKey → List (TomlKey × Toml) → Except TomlFault (List (TomlKey × Toml))
  | done, [], entries => f done entries
  | done, k :: rest, entries =>
    match entries.find? (·.1.name == k.name) with
    | some (_, .table sub tk s e) =>
      if tk = .inline then .error (extendFault pos done k.name "inline table")
      else do
        let sub ← descend pos f (done ++ [k.name]) rest sub
        .ok (setMember entries k.name (.table sub tk s e))
    | some (_, .tables items s e) =>
      match items.getLast? with
      | some (.table sub tk s' e') => do
        let sub ← descend pos f (done ++ [k.name]) rest sub
        .ok (setMember entries k.name (.tables (items.dropLast ++ [.table sub tk s' e']) s e))
      | _ => .error ⟨pos, pos + 1, "duplicate key `" ++ k.name ++ "` in " ++ tableName done⟩
    | some (_, other) => .error (extendFault pos done k.name other.typeName)
    | none => do
      let sub ← descend pos f (done ++ [k.name]) rest []
      .ok (entries ++ [(k, .table sub .implicit pos pos)])

/-- Adds the value `v` under a dotted key whose last part is `last` to the entries of a table.
The leading parts walk into tables that dotted keys made, and make the missing ones. A table
that a header or braces define cannot be extended by a dotted key. In a document, where
`owner` is the path of the current table, a leading part may also walk into an implicit
table or into the last table of an array of tables, but then the value must land in a table
that dotted keys made: `landed` tells whether the table walked into is one. A key given twice
is told with the table it was given in, when there is one. -/
def dottedInsert (owner : Option (List String)) (pos : Nat) (last : TomlKey) (v : Toml) :
    Bool → List String → List TomlKey → List (TomlKey × Toml) → Except TomlFault (List (TomlKey × Toml))
  | landed, _, [], entries =>
    if !landed then .error ⟨pos, pos + 1, "duplicate key `" ++ last.name ++ "`"⟩
    else if entries.any (·.1.name == last.name) then
      .error ⟨pos, pos + 1, "duplicate key `" ++ last.name ++ "`" ++
        ((owner.map (fun path => " in " ++ tableName path)).getD "")⟩
    else .ok (entries ++ [(last, v)])
  | _, done, k :: rest, entries =>
    let twice : Except TomlFault (List (TomlKey × Toml)) := .error ⟨pos, pos + 1, "duplicate key `" ++ k.name ++ "`"⟩
    match entries.find? (·.1.name == k.name) with
    | some (_, .table sub tk s e) =>
      let walk (landed : Bool) : Except TomlFault (List (TomlKey × Toml)) := do
        let sub ← dottedInsert owner pos last v landed (done ++ [k.name]) rest sub
        .ok (setMember entries k.name (.table sub tk s e))
      match tk with
      | .dotted => walk true
      | .implicit => if owner.isSome then walk false else twice
      | .header => twice
      | .inline => if owner.isSome then .error (extendFault pos done k.name "inline table") else twice
    | some (_, .tables items s e) =>
      match items.getLast? with
      | some (.table sub tk s' e') => do
        let sub ← dottedInsert owner pos last v false (done ++ [k.name]) rest sub
        .ok (setMember entries k.name (.tables (items.dropLast ++ [.table sub tk s' e']) s e))
      | _ => twice
    | some (_, other) => .error (extendFault pos done k.name other.typeName)
    | none => do
      let sub ← dottedInsert owner pos last v true (done ++ [k.name]) rest []
      .ok (entries ++ [(k, .table sub .dotted pos pos)])

/-- Adds a value under a dotted key to the entries of a table: the current table of a
document, whose path is `owner`, or an inline table when `owner` is none. -/
def addPair (owner : Option (List String)) (pos : Nat) (keys : List TomlKey) (v : Toml)
    (entries : List (TomlKey × Toml)) : Except TomlFault (List (TomlKey × Toml)) :=
  match keys.getLast? with
  | none => .ok entries
  | some last => dottedInsert owner pos last v true [] keys.dropLast entries

/-- A fault in reading or placing a header is a fault of the header. -/
def headerFault {α : Type} (r : Except TomlFault α) : Except TomlFault α :=
  match r with
  | .error f => .error { f with message := "invalid table header\n" ++ f.message }
  | ok => ok

/-- Lifts a result into the reader. -/
def liftResult {α : Type} (r : Except TomlFault α) : Reader α := fun c =>
  match r with
  | .ok x => .ok (x, c)
  | .error e => .error e

/-- Whether no key can start at a place, after blanks: the place holds neither a quote nor a
character of a bare key. -/
def keyMisses (rest : List Char) : Bool :=
  match rest.dropWhile isBlankChar with
  | '"' :: _ | '\'' :: _ => false
  | c :: _ => !isBareKeyChar c
  | [] => true

/-- Whether no value can start at a place, so that a list of values may end there: the text
ends, or it holds none of the ways a value starts, or a number that misses every reading.
Once a quote, a bracket, a brace, `t` or `f` has started a value, a fault in it is final. -/
def valueMisses (rest : List Char) : Bool :=
  match rest with
  | [] => true
  | '"' :: _ | '\'' :: _ | '[' :: _ | '{' :: _ | 't' :: _ | 'f' :: _ => false
  | 'i' :: 'n' :: 'f' :: _ | 'n' :: 'a' :: 'n' :: _ => false
  | c :: _ =>
    if c.isDigit || c = '+' || c = '-' then
      match Grammar.scalar rest 0 with
      | .miss _ _ => true
      | _ => false
    else true

/-- Skips blanks, comments and newlines, as around the items of an array; `fuel` bounds the
lines skipped. A carriage return that no line feed follows, or a comment that no newline
ends, breaks the line: the fault is then the byte just past the character that broke it. -/
def newlineGaps : Nat → Cursor → Except Nat Cursor
  | 0, c => .ok c
  | fuel + 1, c =>
    let (_, rest, pos) := spanChars isBlankChar c.rest c.pos
    match rest with
    | '#' :: more =>
      let (_, after, stop) := spanChars isCommentChar more (pos + 1)
      match after with
      | '\n' :: r => newlineGaps fuel ⟨r, stop + 1⟩
      | '\r' :: '\n' :: r => newlineGaps fuel ⟨r, stop + 2⟩
      | _ :: _ => .error (stop + 1)
      | [] => .error stop
    | '\n' :: r => newlineGaps fuel ⟨r, pos + 1⟩
    | '\r' :: '\n' :: r => newlineGaps fuel ⟨r, pos + 2⟩
    | '\r' :: _ => .error (pos + 1)
    | _ => .ok ⟨rest, pos⟩

/-- The closing bracket of an array, after blanks, comments and newlines. -/
def closeArray (acc : List Toml) : Reader (List Toml) := fun c =>
  match newlineGaps (c.rest.length + 1) c with
  | .error pos => .error ⟨pos, pos + 1, ""⟩
  | .ok c =>
    match c.rest with
    | ']' :: r => .ok (acc.reverse, ⟨r, c.pos + 1⟩)
    | _ => .error ⟨c.pos, c.pos + 1, "invalid array\nexpected `]`"⟩

mutual

/-- Reads a key: simple keys joined by points, with blanks around them, each with its bytes.
A quoted simple key is a basic or literal string on one line; `"""a"""` is the empty key `""`
and then a fault. -/
def key : Nat → Reader (List TomlKey)
  | 0 => pure []
  | fuel + 1 => do
    blanks
    let start ← here
    let name ←
      match ← ahead with
      | '"' :: rest => do bump; basicBody (rest.length + 1) []
      | '\'' :: _ => do bump; literalBody
      | _ => do
        let bare ← takeWhile isBareKeyChar
        if bare.isEmpty then failHere "invalid key" else pure bare
    let part : TomlKey := ⟨name, start, ← here⟩
    blanks
    match ← ahead with
    | '.' :: after =>
      if keyMisses after then pure [part]
      else do bump; pure (part :: (← key fuel))
    | _ => pure [part]

/-- Reads a value. -/
def value : Nat → Reader Toml
  | 0 => failHere badValue
  | fuel + 1 => do
    let start ← here
    let rest ← ahead
    match rest with
    | '"' :: _ | '\'' :: _ => do
      let s ← quoted
      pure (.string s start (← here))
    | '[' :: _ => do
      bump
      let items ← arrayItems fuel []
      pure (.array items start (← here))
    | '{' :: _ => do
      bump
      let opened ← here
      let pairs ← inlinePairs fuel []
      blanks
      let entries ← liftResult (pairs.foldlM (fun entries (keys, v) => addPair none opened keys v entries) [])
      match ← ahead with
      | '}' :: _ => do bump; pure (.table entries .inline start (← here))
      | _ => failHere "invalid inline table\nexpected `\x7d`"
    | 't' :: 'r' :: 'u' :: 'e' :: _ => do bumpMany 4; pure (.boolean true start (start + 4))
    | 'f' :: 'a' :: 'l' :: 's' :: 'e' :: _ => do bumpMany 5; pure (.boolean false start (start + 5))
    | 'i' :: 'n' :: 'f' :: _ => do bumpMany 3; pure (.float (1.0 / 0.0) start (start + 3))
    | 'n' :: 'a' :: 'n' :: _ => do bumpMany 3; pure (.float (0.0 / 0.0) start (start + 3))
    | c :: _ =>
      if c.isDigit || c = '+' || c = '-' then scalar start
      else if c = '_' then do
        let (n, stop) ← scan (Grammar.expecting "leading digit" Grammar.integer)
        pure (.integer n start stop)
      else if c = '.' then do
        let (x, stop) ← scan (Grammar.expecting "leading digit" Grammar.float)
        pure (.float x start stop)
      else failHere badValue
    | [] => failHere ""

/-- Reads an item of an array with the blanks, comments and newlines around it; none, with
the reader left where it was, when no value starts there or a newline around it is broken. A
fault inside a value that has started is final. -/
def arrayItem : Nat → Reader (Option Toml)
  | 0 => pure none
  | fuel + 1 => fun c =>
    match newlineGaps (c.rest.length + 1) c with
    | .error _ => .ok (none, c)
    | .ok before =>
      if valueMisses before.rest then .ok (none, c)
      else
        match value fuel before with
        | .error e => .error e
        | .ok (v, after) =>
          match newlineGaps (after.rest.length + 1) after with
          | .error _ => .ok (none, c)
          | .ok next => .ok (some v, next)

/-- Reads the items of an array after its opening bracket, up to and past the closing one.
The items end where no item can be read, and a comma may follow the last. -/
def arrayItems : Nat → List Toml → Reader (List Toml)
  | 0, acc => pure acc.reverse
  | fuel + 1, acc => do
    match ← arrayItem fuel with
    | none => closeArray acc
    | some v =>
      match ← ahead with
      | ',' :: _ => do bump; arrayItems fuel (v :: acc)
      | _ => closeArray (v :: acc)

/-- Reads the pairs of an inline table after its opening brace, in order; they end where no
key can start, and a comma must be followed by a pair. -/
def inlinePairs : Nat → List (List TomlKey × Toml) → Reader (List (List TomlKey × Toml))
  | 0, acc => pure acc.reverse
  | fuel + 1, acc => do
    if keyMisses (← ahead) then pure acc.reverse
    else do
      blanks
      let keys ← key fuel
      match ← ahead with
      | '=' :: _ => bump
      | _ => failHere "expected `.`, `=`"
      blanks
      let v ← value fuel
      blanks
      let acc := (keys, v) :: acc
      let beforeComma ← get
      match ← ahead with
      | ',' :: _ => do
        bump
        if keyMisses (← ahead) then do set beforeComma; pure acc.reverse
        else inlinePairs fuel acc
      | _ => pure acc.reverse

end

/-- What has been read of a document: its entries and the path of the table that pairs go to. -/
structure Document where
  entries : List (TomlKey × Toml) := []
  current : List TomlKey := []

/-- The end of a header's line; a fault there is a fault of the header. -/
def headerEnd : Reader Unit := fun c => headerFault (lineEnd c)

/-- Reads a header `[a.b]` and makes its table the current one. A table may be opened once;
a table made on the way to another one may be opened later, and then it moves to the end of
its parent. -/
def tableHeader (fuel : Nat) (doc : Document) : Reader Document := do
  let start ← here
  bump
  let keys ← key fuel
  match ← ahead with
  | ']' :: _ => bump
  | _ => failHere "invalid table header\nexpected `.`, `]`"
  let stop ← here
  headerEnd
  let last := keys.getLastD ⟨"", start, start⟩
  let entries ← liftResult <| headerFault <| (descend start (fun done sub =>
    let dup : Except TomlFault (List (TomlKey × Toml)) :=
      .error ⟨start, start + 1, "duplicate key `" ++ last.name ++ "` in " ++ tableName done⟩
    match sub.find? (·.1.name == last.name) with
    | none => .ok (sub ++ [(last, .table [] .header start stop)])
    | some (_, .table inner .implicit _ _) =>
      .ok (sub.filter (·.1.name != last.name) ++ [(last, .table inner .header start stop)])
    | some _ => dup) [] keys.dropLast doc.entries)
  pure { entries := entries, current := keys }

/-- Reads a header `[[a.b]]`, adds a table to its array and makes it the current one. -/
def arrayHeader (fuel : Nat) (doc : Document) : Reader Document := do
  let start ← here
  bumpMany 2
  let keys ← key fuel
  match ← ahead with
  | ']' :: ']' :: _ => bumpMany 2
  | _ => failHere "invalid table header\nexpected `.`, `]]`"
  let stop ← here
  headerEnd
  let last := keys.getLastD ⟨"", start, start⟩
  let entries ← liftResult <| headerFault <| (descend start (fun done sub =>
    match sub.find? (·.1.name == last.name) with
    | none => .ok (sub ++ [(last, .tables [.table [] .header start stop] start stop)])
    | some (_, .tables items s _) =>
      .ok (setMember sub last.name (.tables (items ++ [.table [] .header start stop]) s stop))
    | some _ => .error ⟨start, start + 1, "duplicate key `" ++ last.name ++ "` in " ++ tableName done⟩)
    [] keys.dropLast doc.entries)
  pure { entries := entries, current := keys }

/-- Reads a pair `key = value` and its line into the current table. -/
def pair (fuel : Nat) (doc : Document) : Reader Document := do
  let pos ← here
  let keys ← key fuel
  match ← ahead with
  | '=' :: _ => bump
  | _ => failHere "expected `.`, `=`"
  blanks
  let v ← value fuel
  lineEnd
  let entries ← liftResult (descend pos (fun _ sub => addPair (some (doc.current.map (·.name))) pos keys v sub)
    [] doc.current doc.entries)
  pure { doc with entries := entries }

/-- Reads the lines of a document; `fuel` bounds the lines. A comment must end its line, and
a carriage return must be followed by a line feed. -/
def lines : Nat → Document → Reader Document
  | 0, doc => pure doc
  | fuel + 1, doc => do
    blanks
    let rest ← ahead
    let budget := rest.length + 1
    match rest with
    | [] => pure doc
    | '#' :: _ => do
      skipComment
      match ← ahead with
      | [] => pure doc
      | '\n' :: _ => do bump; lines fuel doc
      | '\r' :: '\n' :: _ => do bumpMany 2; lines fuel doc
      | _ => failHere ""
    | '\n' :: _ => do bump; lines fuel doc
    | '\r' :: '\n' :: _ => do bumpMany 2; lines fuel doc
    | '\r' :: _ => failHere ""
    | '[' :: '[' :: _ => do
      let doc ← arrayHeader budget doc
      lines fuel doc
    | '[' :: _ => do
      let doc ← tableHeader budget doc
      lines fuel doc
    | _ => do
      let doc ← pair budget doc
      lines fuel doc

end Toml

/-- Reads a TOML text to the entries of its root table; a byte order mark at the start is
skipped. A fault underlines the whole character at its byte. -/
def Toml.read (text : String) : Except TomlFault (List (TomlKey × Toml)) :=
  let (chars, pos) := match text.toList with
    | '\uFEFF' :: rest => (rest, 3)
    | chars => (chars, 0)
  match (Toml.lines (chars.length + 1) {}).run ⟨chars, pos⟩ with
  | .ok (doc, _) => .ok doc.entries
  | .error e => .error { e with stop := e.start + Toml.charBytesAt text.toList 0 e.start }

end QueryAdvisor
