/-!
# Universally unique identifiers

A UUID is 128 bits. It is written as 32 lower-case hexadecimal digits in five groups of 8, 4,
4, 4 and 12, joined by hyphens. It is read from that form in either case, from 32 digits
without hyphens, from the grouped form in braces, and from the grouped form after `urn:uuid:`
in either case.

A text that is none of these is judged in this order: a text longer than any of the forms,
then the first character of its body (inside the braces or after the prefix) that is neither
a hexadecimal digit nor a hyphen, at its byte in the text, then a text without braces, prefix
or hyphens, which can only have the wrong length, then the wrong number of groups, then the
first group of the wrong length. When only the last group is wrong, its length is told as
what the text holds past its first 24 bytes, braces or prefix included. A text of the size of
a braced or prefixed form is judged by its body of 36 bytes alone, as a plain text.
-/

namespace QueryAdvisor

/-- A 128-bit identifier. -/
structure Uuid where
  value : Nat
deriving DecidableEq, Repr

/-- Why a text is no UUID. -/
inductive UuidFault where
  | character (c : Char) (index : Nat)
  | length (length : Nat)
  | groupCount (count : Nat)
  | groupLength (group expected length : Nat)
deriving DecidableEq, Repr

/-- The words for a UUID fault. -/
def UuidFault.message : UuidFault → String
  | .character c i => "invalid character: found `" ++ c.toString ++ "` at " ++ toString i
  | .length n => "invalid length: found " ++ toString n
  | .groupCount n => "invalid group count: expected 5, found " ++ toString n
  | .groupLength g e n =>
    "invalid group length in group " ++ toString g ++ ": expected " ++ toString e ++ ", found " ++ toString n

namespace Uuid

/-- The value of a hexadecimal digit. -/
def hexDigit? (c : Char) : Option Nat :=
  if c.isDigit then some (c.toNat - 48)
  else if 'a' ≤ c && c ≤ 'f' then some (c.toNat - 87)
  else if 'A' ≤ c && c ≤ 'F' then some (c.toNat - 55)
  else none

/-- The value of a run of hexadecimal digits. -/
def hexValue? (cs : List Char) : Option Nat :=
  cs.foldl (fun acc c => acc.bind (fun a => (hexDigit? c).map (fun d => 16 * a + d))) (some 0)

/-- The hexadecimal digits of `n`, `width` of them, lower case. -/
def hexText (width n : Nat) : String :=
  let digit (d : Nat) : Char := if d < 10 then Char.ofNat (48 + d) else Char.ofNat (87 + d)
  String.ofList ((List.range width).reverse.map (fun i => digit (n / Nat.pow 16 i % 16)))

/-- The grouped, lower-case text. -/
def text (u : Uuid) : String :=
  let h := hexText 32 u.value
  let part (a b : Nat) := String.ofList ((h.toList.drop a).take (b - a))
  part 0 8 ++ "-" ++ part 8 12 ++ "-" ++ part 12 16 ++ "-" ++ part 16 20 ++ "-" ++ part 20 32

/-- Reads the grouped form: five groups of 8, 4, 4, 4 and 12 digits. -/
def grouped? (cs : List Char) : Option Nat :=
  match cs.splitOn '-' with
  | [a, b, c, d, e] =>
    if a.length == 8 && b.length == 4 && c.length == 4 && d.length == 4 && e.length == 12 then
      hexValue? (a ++ b ++ c ++ d ++ e)
    else none
  | _ => none

/-- Whether a text starts with `urn:uuid:` in either case. -/
def hasPrefix (cs : List Char) : Bool :=
  (cs.take 9).map Char.toLower == "urn:uuid:".toList

/-- The body of a text and the bytes before it: one for a brace, nine for the prefix, none for
a plain text. -/
def body (cs : List Char) : List Char × Nat :=
  if cs.head? == some '{' && cs.getLast? == some '}' && cs.length ≥ 2 then ((cs.drop 1).dropLast, 1)
  else if hasPrefix cs then (cs.drop 9, 9)
  else (cs, 0)

/-- The positions of the hyphens of a text. -/
def hyphens (cs : List Char) : List Nat :=
  ((cs.zip (List.range cs.length)).filter (fun p => p.1 == '-')).map (·.2)

/-- Why a text fails that has none of the sizes of the accepted forms with their braces or
prefix. -/
def unshapedFault (s : String) : UuidFault :=
  let cs := s.toList
  let (b, offset) := body cs
  let positions := (b.zip (List.range b.length))
  let bytesBefore (i : Nat) : Nat := (String.ofList (b.take i)).utf8ByteSize
  match positions.find? (fun p => p.1 != '-' && (hexDigit? p.1).isNone) with
  | some (c, i) => .character c (offset + bytesBefore i)
  | none =>
    let hs := hyphens b
    if hs.isEmpty && offset == 0 then .length s.utf8ByteSize
    else if hs.length != 4 then .groupCount (hs.length + 1)
    else
      let starts := [0, 9, 14, 19, 24]
      let expected := [8, 4, 4, 4, 12]
      let wrong := (List.range 4).find? (fun g => hs[g]? != some (starts[g + 1]! - 1))
      match wrong with
      | some g => .groupLength g (expected[g]!) ((hs[g]!) - starts[g]!)
      | none => .groupLength 4 12 (s.utf8ByteSize - 24)

/-- The body of a text of 38 bytes in braces or of 45 bytes after the prefix. -/
def shapedBody? (cs : List Char) (size : Nat) : Option (List Char) :=
  if size == 38 && cs.head? == some '{' && cs.getLast? == some '}' then some ((cs.drop 1).dropLast)
  else if size == 45 && hasPrefix cs then some (cs.drop 9)
  else none

/-- Why a text that is no UUID fails. -/
def fault (s : String) : UuidFault :=
  if 45 < s.utf8ByteSize then .length s.utf8ByteSize
  else
    match shapedBody? s.toList s.utf8ByteSize with
    | some b => unshapedFault (String.ofList b)
    | none => unshapedFault s

/-- Reads a UUID from any of its accepted forms. -/
def read (s : String) : Except UuidFault Uuid :=
  let cs := s.toList
  let parsed : Option Nat :=
    match cs.length with
    | 32 => if cs.all (fun c => (hexDigit? c).isSome) then hexValue? cs else none
    | 36 => grouped? cs
    | 38 => if cs.head? == some '{' && cs.getLast? == some '}' then grouped? ((cs.drop 1).dropLast) else none
    | 45 => if hasPrefix cs then grouped? (cs.drop 9) else none
    | _ => none
  match parsed with
  | some v => .ok ⟨v⟩
  | none => .error (fault s)

end Uuid

end QueryAdvisor
