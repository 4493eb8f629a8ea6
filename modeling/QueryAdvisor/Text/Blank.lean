/-!
# White space and names

White space is the Unicode property White_Space: the controls from tab to carriage return,
the space, next line, no-break space, ogham space mark, the spaces from en quad to hair space,
line and paragraph separators, narrow no-break space, medium mathematical space and the
ideographic space. `trimBlank` removes it from both ends of a text.

Names of tables, aliases and columns compare without regard to the case of ASCII letters;
other characters must be equal.
-/

namespace QueryAdvisor

/-- Whether a character is white space. -/
def isBlank (c : Char) : Bool :=
  let n := c.toNat
  (9 ≤ n && n ≤ 13) || n = 32 || n = 0x85 || n = 0xA0 || n = 0x1680 ||
    (0x2000 ≤ n && n ≤ 0x200A) || n = 0x2028 || n = 0x2029 || n = 0x202F || n = 0x205F || n = 0x3000

/-- A text without white space at either end. -/
def trimBlank (s : String) : String :=
  String.ofList ((s.toList.dropWhile isBlank).reverse.dropWhile isBlank).reverse

/-- Whether a text is empty or all white space. -/
def isBlankText (s : String) : Bool := s.toList.all isBlank

/-- Two names are the same up to the case of ASCII letters. -/
def sameName (a b : String) : Bool := a.toLower == b.toLower

end QueryAdvisor
