import QueryAdvisor.Text.CharClass
/-!
# Display width

The display width of a text is the number of terminal columns it takes. A character on its own
takes one column, two if it is wide or shown as an emoji picture, none if it is zero-width
(`CharClass`); every character up to U+00A0, control characters included, takes one. Two
Khmer characters that are not to be used take the columns of the sequences written in their
place: the independent vowel QAA (U+17A4) two, the sign BEYYAL (U+17D8) three.

Some sequences take another width than the sum of their characters:

* a character with an emoji variation sequence followed by U+FE0F takes two columns, and one
  that is shown as an emoji by default followed by U+FE0E takes one (the enclosed ideographs
  apart);
* an emoji followed by a skin tone takes two columns, and so does a sequence of emoji joined
  by U+200D;
* `"\r\n"` takes one column;
* some script ligatures take one column: Lam, transparent marks and Alef in Arabic, Alef and
  Lamed joined in Hebrew, ya with the vowel sign i in Buginese, two Tifinagh consonants
  around a joiner, two Lisu tone letters, Orkhon ec and i in Old Turkic; a Khmer coeng sign
  with the letter after it takes none.

A text is measured from its end: each character is measured in the state that the characters
after it have left, a `State`, and leaves a state for the character before it.
-/

namespace QueryAdvisor

namespace Width

/-- What the characters after a position ask of the character at it. -/
inductive Mode where
  | plain
  | lineFeed
  | emoji
  | emojiModifier
  | indicator
  | indicators
  | zwjEmoji
  | keycapZwjEmoji
  | indicatorZwj
  | evenIndicatorZwj
  | oddIndicatorZwj
  | tagEnd
  | tagLetters (count : Nat)
  | tagDigits (count : Nat)
  | alef
  | hebrewLamed (joined : Bool)
  | bugineseYa (joined : Bool)
  | bugineseIYa
  | tifinagh (joined : Bool)
  | tifinaghJoiner
  | lisuTone
  | oldTurkicI (joined : Bool)
  | khmerLetter
deriving DecidableEq, Repr

namespace Mode

/-- The modes of a script ligature, which variation selectors pass through. -/
def ligature : Mode → Bool
  | .alef | .hebrewLamed _ | .bugineseYa _ | .bugineseIYa | .tifinagh _ | .tifinaghJoiner
  | .lisuTone | .oldTurkicI _ | .khmerLetter => true
  | _ => false

/-- The ligature modes that joiners and ignorable marks pass through. -/
def passesMarks (m : Mode) : Bool := m.ligature && m != .alef

/-- The modes after a joiner inside a sequence of emoji. -/
def joinedEmoji : Mode → Bool
  | .zwjEmoji | .keycapZwjEmoji => true
  | _ => false

/-- The mode after a zero width joiner. -/
def join : Mode → Mode
  | .hebrewLamed _ => .hebrewLamed true
  | .bugineseYa _ => .bugineseYa true
  | .tifinagh _ => .tifinagh true
  | .oldTurkicI _ => .oldTurkicI true
  | m => m

end Mode

/-- The state of a measurement from the end: the mode, and which variation selector waits for
its base. -/
structure State where
  mode : Mode := .plain
  emojiSelector : Bool := false
  textSelector : Bool := false
deriving DecidableEq, Repr

namespace State

/-- The state after U+FE0F. -/
def withEmojiSelector (s : State) : State :=
  if s.mode.ligature || (s.mode.joinedEmoji && !s.emojiSelector) then { s with emojiSelector := true }
  else { emojiSelector := true }

/-- The state when the character before U+FE0F has no emoji variation sequence. -/
def dropEmojiSelector (s : State) : State :=
  if s.mode.ligature then { s with emojiSelector := false } else {}

/-- The state after U+FE0E. -/
def withTextSelector (s : State) : State :=
  if s.mode.ligature then { s with textSelector := true } else { textSelector := true }

/-- Whether U+FE0F stands before a joiner inside a sequence of emoji. -/
def inJoinedEmoji (s : State) : Bool := s.emojiSelector && s.mode.joinedEmoji

end State

/-- A regional indicator letter. -/
def isIndicator (n : Nat) : Bool := 0x1F1E6 ≤ n && n ≤ 0x1F1FF

/-- A skin tone modifier. -/
def isSkinTone (n : Nat) : Bool := 0x1F3FB ≤ n && n ≤ 0x1F3FF

/-- A Tifinagh consonant. -/
def isTifinaghConsonant (n : Nat) : Bool := (0x2D31 ≤ n && n ≤ 0x2D65) || n == 0x2D6F

/-- A Khmer letter that may follow a coeng sign. -/
def isKhmerCoengLetter (n : Nat) : Bool :=
  [(0x1780, 0x1782), (0x1784, 0x1787), (0x1789, 0x178C), (0x178E, 0x1793), (0x1795, 0x1798),
   (0x179B, 0x179D), (0x17A0, 0x17A2)].any (fun r => r.1 ≤ n && n ≤ r.2)

/-- A tag letter. -/
def isTagLetter (n : Nat) : Bool := 0xE0061 ≤ n && n ≤ 0xE007A

/-- A tag digit. -/
def isTagDigit (n : Nat) : Bool := 0xE0030 ≤ n && n ≤ 0xE0039

/-- A zero-width character that Arabic joining passes through. -/
def arabicTransparent (n : Nat) : Bool :=
  CharClass.zeroWidth.mem n && !CharClass.opaqueZeroWidth.mem n

/-- The columns a character above U+00A0 takes on its own, and the mode it leaves for the
character before it. -/
def single (n : Nat) : Int × State :=
  if n == 0x05DC then (1, { mode := .hebrewLamed false })
  else if CharClass.alefGroup.mem n then (1, { mode := .alef })
  else if isKhmerCoengLetter n then (1, { mode := .khmerLetter })
  else if n == 0x17A4 then (2, {})
  else if n == 0x17D8 then (3, {})
  else if n == 0x1A10 then (1, { mode := .bugineseYa false })
  else if isTifinaghConsonant n then (1, { mode := .tifinagh false })
  else if n == 0xA4FC || n == 0xA4FD then (1, { mode := .lisuTone })
  else if n == 0xFE0E then (0, { textSelector := true })
  else if n == 0xFE0F then (0, { emojiSelector := true })
  else if n == 0x10C03 then (1, { mode := .oldTurkicI false })
  else if isIndicator n then (1, { mode := .indicator })
  else if isSkinTone n then (2, { mode := .emojiModifier })
  else if CharClass.emojiPresentation.mem n then (2, { mode := .emoji })
  else if CharClass.zeroWidth.mem n then (0, {})
  else if CharClass.wide.mem n then (2, {})
  else (1, {})

/-- The width of a character that ends or continues a sequence begun by the characters after
it, in a mode with no variation selector waiting; none if it does neither. -/
def joined (m : Mode) (n : Nat) : Option (Int × State) :=
  let zwj := n == 0x200D
  match m with
  | .alef =>
    if CharClass.lamGroup.mem n then some (0, {})
    else if arabicTransparent n then some (0, { mode := .alef })
    else none
  | .hebrewLamed true => if n == 0x05D0 then some (0, {}) else none
  | .khmerLetter => if n == 0x17D2 then some (-1, {}) else none
  | .bugineseYa true => if n == 0x1A17 then some (0, { mode := .bugineseIYa }) else none
  | .bugineseIYa => if n == 0x1A15 then some (0, {}) else none
  | .tifinagh j =>
    if n == 0x2D7F then some (1, { mode := .tifinaghJoiner })
    else if j && isTifinaghConsonant n then some (0, {})
    else none
  | .tifinaghJoiner => if isTifinaghConsonant n then some (-1, {}) else none
  | .lisuTone => if 0xA4F8 ≤ n && n ≤ 0xA4FB then some (0, {}) else none
  | .oldTurkicI true => if n == 0x10C32 then some (0, {}) else none
  | .emojiModifier =>
    if CharClass.emojiModifierBase.mem n then some (0, { mode := .emoji })
    else if zwj then some (0, { mode := .zwjEmoji })
    else none
  | .indicator => if isIndicator n then some (1, { mode := .indicators }) else none
  | .indicators =>
    if isIndicator n then some (1, { mode := .indicators })
    else if zwj then some (0, { mode := .zwjEmoji })
    else none
  | .emoji => if zwj then some (0, { mode := .zwjEmoji }) else none
  | .zwjEmoji =>
    if n == 0x20E3 then some (0, { mode := .keycapZwjEmoji })
    else if isIndicator n then some (1, { mode := .indicatorZwj })
    else if isSkinTone n then some (0, { mode := .emojiModifier })
    else if n == 0xE007F then some (0, { mode := .tagEnd })
    else if (single n).2.mode == .emoji then some (0, { mode := .emoji })
    else none
  | .indicatorZwj => if isIndicator n then some (-1, { mode := .evenIndicatorZwj }) else none
  | .oddIndicatorZwj =>
    if isIndicator n then some (-1, { mode := .evenIndicatorZwj })
    else if zwj then some (0, { mode := .zwjEmoji })
    else none
  | .evenIndicatorZwj =>
    if isIndicator n then some (3, { mode := .oddIndicatorZwj })
    else if zwj then some (0, { mode := .zwjEmoji })
    else none
  | .tagEnd =>
    if isTagLetter n then some (0, { mode := .tagLetters 1 })
    else if isTagDigit n then some (0, { mode := .tagDigits 1 })
    else none
  | .tagLetters k =>
    if isTagLetter n && k < 6 then some (0, { mode := .tagLetters (k + 1) })
    else if isTagDigit n && k < 5 then some (0, { mode := .tagDigits 1 })
    else if n == 0x1F3F4 && 3 ≤ k then some (0, { mode := .emoji })
    else none
  | .tagDigits k =>
    if isTagDigit n && k < 3 then some (0, { mode := .tagDigits (k + 1) })
    else if n == 0x1F3F4 && k == 3 then some (0, { mode := .emoji })
    else none
  | _ => none

/-- Measures one character in the state that the characters after it have left: the columns
it adds (a ligature may take some back) and the state it leaves. -/
def step (c : Char) (s : State) : Int × State :=
  let n := c.toNat
  let early : Option (Int × State) :=
    if s.emojiSelector && CharClass.emojiVariationBase.mem n then
      some (if s.inJoinedEmoji then 0 else 2, { mode := .emoji })
    else none
  match early with
  | some r => r
  | none =>
    let s := if s.emojiSelector then s.dropEmojiSelector else s
    if n ≤ 0xA0 then
      if n == 0x0A then (1, { mode := .lineFeed })
      else if n == 0x0D && s == { mode := .lineFeed } then (0, {})
      else (1, {})
    else if s == {} then single n
    else if n == 0xFE0F then (0, s.withEmojiSelector)
    else if n == 0xFE0E then (0, s.withTextSelector)
    else if s.textSelector && CharClass.emojiVariationBase.mem n && CharClass.emojiPresentation.mem n &&
        !(0x1F200 ≤ n && n ≤ 0x1F2FF) then (1, {})
    else
      let s := { s with textSelector := false }
      if s.mode.passesMarks && n == 0x200D then (0, { s with mode := s.mode.join })
      else if s.mode.passesMarks && CharClass.ignorableMark.mem n then (0, s)
      else (joined s.mode n).getD (single n)

end Width

/-- The columns a text takes. -/
def displayWidth (s : String) : Nat :=
  (s.toList.foldr (fun c acc => let r := Width.step c acc.2; (acc.1 + r.1, r.2)) ((0 : Int), ({} : Width.State))).1.toNat

end QueryAdvisor
