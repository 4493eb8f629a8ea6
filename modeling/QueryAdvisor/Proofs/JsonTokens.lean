import Mathlib
import QueryAdvisor.Json.Reader
/-!
# Reading back the tokens of JSON text

The strict reader takes back each token the printer writes: a quoted string with its escapes,
an integer, and the text of a double, wherever the token stands in a text and whatever follows
it that ends a value.

A string is read character by character, and each character comes back from what `escapeChar`
made of it, control characters through their `\u` escape. A number is the one token whose end
is found by looking past it: the reader stops at the first character that cannot continue it.
`number_shift` says that appending such characters, or moving the token to another place,
changes nothing but where the reader stops. `number_passes` says what a successful read took:
a piece of the text, its bytes counted in the place.
-/

namespace QueryAdvisor.Json

/-- The bytes a run of characters takes in UTF-8. -/
def bytes (cs : List Char) : Nat := (cs.map Char.utf8Size).sum

@[simp] theorem bytes_nil : bytes [] = 0 := rfl

@[simp] theorem bytes_cons (x : Char) (r : List Char) : bytes (x :: r) = x.utf8Size + bytes r := by
  simp [bytes]

@[simp] theorem bytes_append (a b : List Char) : bytes (a ++ b) = bytes a + bytes b := by
  simp [bytes]

theorem utf8ByteSize_eq_bytes (s : String) : s.utf8ByteSize = bytes s.toList := by
  rw [← String.ofList_toList (s := s)]
  generalize s.toList = cs
  induction cs with
  | nil => rfl
  | cons x r ih => simp [String.utf8ByteSize_append, String.utf8ByteSize_singleton, ih]

theorem length_le_bytes (cs : List Char) : cs.length ≤ bytes cs := by
  induction cs with
  | nil => simp
  | cons x t ih =>
    have := Char.utf8Size_pos x
    simp only [List.length_cons, bytes_cons]
    omega

theorem utf8Size_of_isDigit {ch : Char} (h : ch.isDigit = true) : ch.utf8Size = 1 := by
  simp only [Char.isDigit, Bool.and_eq_true, decide_eq_true_eq] at h
  rw [Char.utf8Size_eq_one_iff]
  have h9 : ('9' : Char).val = 57 := rfl
  rw [h9] at h
  exact UInt32.le_trans h.2 (by decide)

theorem bytes_of_digits {ds : List Char} (h : ∀ ch ∈ ds, ch.isDigit = true) : bytes ds = ds.length := by
  induction ds with
  | nil => rfl
  | cons x t ih =>
    simp only [bytes_cons, List.length_cons, utf8Size_of_isDigit (h x List.mem_cons_self)]
    rw [ih (fun ch hch => h ch (List.mem_cons_of_mem x hch))]
    omega

/-! ## Strings -/

/-- The body of a quoted string: each character as `escapeChar` writes it. -/
def escaped (cs : List Char) : List Char := cs.flatMap (fun x => (escapeChar x).toList)

@[simp] theorem escaped_nil : escaped [] = [] := rfl

@[simp] theorem escaped_cons (x : Char) (cs : List Char) :
    escaped (x :: cs) = (escapeChar x).toList ++ escaped cs := rfl

theorem quote_toList (s : String) : (quote s).toList = '"' :: escaped s.toList ++ ['"'] := by
  simp [quote, escaped, List.flatMap_map]

theorem escapeChar_ne_nil (x : Char) : (escapeChar x).toList ≠ [] := by
  unfold escapeChar
  split
  all_goals try simp
  split_ifs <;> simp

theorem length_le_escaped (cs : List Char) : cs.length ≤ (escaped cs).length := by
  induction cs with
  | nil => simp
  | cons x t ih =>
    have := List.length_pos_iff.mpr (escapeChar_ne_nil x)
    simp only [List.length_cons, escaped_cons, List.length_append]
    omega

theorem hexValue_digit : ∀ d < 16,
    hexValue (if d < 10 then Char.ofNat (48 + d) else Char.ofNat (87 + d)) = some d := by
  decide

theorem hex4_toList (n : Nat) : (hex4 n).toList =
    [n / 4096 % 16, n / 256 % 16, n / 16 % 16, n % 16].map
      (fun d => if d < 10 then Char.ofNat (48 + d) else Char.ofNat (87 + d)) := by
  simp [hex4]

theorem bytes_hex4 (n : Nat) : bytes (hex4 n).toList = 4 := by
  have hsize : ∀ d < 16, (if d < 10 then Char.ofNat (48 + d) else Char.ofNat (87 + d)).utf8Size = 1 := by
    decide
  simp [hex4_toList, hsize _ (Nat.mod_lt _ (by omega : 0 < 16))]

theorem hex4_read (n : Nat) (h : n < 65536) (rest : List Char) (p size : Nat) :
    (Cursor.mk ((hex4 n).toList ++ rest) p size).hex4 = .ok (n, ⟨rest, p + 4, size⟩) := by
  rw [hex4_toList]
  simp only [List.map_cons, List.map_nil, List.cons_append, List.nil_append, Cursor.hex4]
  rw [hexValue_digit _ (Nat.mod_lt _ (by omega)), hexValue_digit _ (Nat.mod_lt _ (by omega)),
    hexValue_digit _ (Nat.mod_lt _ (by omega)), hexValue_digit _ (Nat.mod_lt _ (by omega))]
  simp only [List.drop_succ_cons, List.drop_zero]
  congr 3
  omega

theorem unicodeEscape_hex4 (n : Nat) (h : n < 0xD800) (rest : List Char) (p size : Nat) :
    (Cursor.mk ((hex4 n).toList ++ rest) p size).unicodeEscape = .ok (Char.ofNat n, ⟨rest, p + 4, size⟩) := by
  have hlow : ¬(56320 ≤ n ∧ n ≤ 57343) := by omega
  simp [Cursor.unicodeEscape, hex4_read n (by omega), bind, Except.bind, hlow, h]

theorem stringBody_escapeChar (x : Char) (rest acc : List Char) (p n f : Nat) :
    Cursor.stringBody ⟨(escapeChar x).toList ++ rest, p, n⟩ acc (f + 1) =
      Cursor.stringBody ⟨rest, p + bytes (escapeChar x).toList, n⟩ (x :: acc) f := by
  unfold escapeChar
  split
  case h_6 hq hb hn hr ht =>
    split_ifs with h8 h12 h32
    · have hx : Char.ofNat 8 = x := by rw [← h8, Char.ofNat_toNat]
      subst hx
      simp [Cursor.stringBody, Cursor.advance, Nat.add_assoc]
    · have hx : Char.ofNat 12 = x := by rw [← h12, Char.ofNat_toNat]
      subst hx
      simp [Cursor.stringBody, Cursor.advance, Nat.add_assoc]
    · have hu := unicodeEscape_hex4 x.toNat (by omega) rest (p + '\\'.utf8Size + 'u'.utf8Size) n
      rw [Char.ofNat_toNat] at hu
      have htext : ("\\u" ++ hex4 x.toNat).toList ++ rest = '\\' :: 'u' :: ((hex4 x.toNat).toList ++ rest) := by
        simp
      rw [htext]
      simp only [Cursor.stringBody, Cursor.advance, hu]
      simp [bytes_hex4, Nat.add_assoc]
    · have hx : ¬ x.toNat < 32 := h32
      simp [Cursor.stringBody, Cursor.advance, hx]
  all_goals simp [Cursor.stringBody, Cursor.advance, Nat.add_assoc]

theorem stringBody_escaped (cs rest acc : List Char) (p m f : Nat) (hf : cs.length < f) :
    Cursor.stringBody ⟨escaped cs ++ '"' :: rest, p, m⟩ acc f =
      .ok (String.ofList (acc.reverse ++ cs), ⟨rest, p + bytes (escaped cs) + 1, m⟩) := by
  induction cs generalizing acc p f with
  | nil =>
    obtain ⟨f, rfl⟩ : ∃ g, f = g + 1 := ⟨f - 1, by simp at hf; omega⟩
    simp [Cursor.stringBody, Cursor.advance, show '"'.utf8Size = 1 from rfl]
  | cons x t ih =>
    obtain ⟨f, rfl⟩ : ∃ g, f = g + 1 := ⟨f - 1, by simp at hf; omega⟩
    rw [escaped_cons, List.append_assoc, stringBody_escapeChar,
      ih (x :: acc) _ f (by simp at hf; omega)]
    simp [Nat.add_assoc]

theorem string_quote (s : String) (r : List Char) (p m : Nat)
    (hfit : p + bytes ((quote s).toList ++ r) ≤ m) :
    (Cursor.mk ((quote s).toList ++ r) p m).advance.string = .ok (s, ⟨r, p + bytes (quote s).toList, m⟩) := by
  have hlen := length_le_escaped s.toList
  have hbytes := length_le_bytes (escaped s.toList)
  rw [quote_toList] at hfit ⊢
  simp only [List.cons_append, List.append_assoc, Cursor.advance, Cursor.string]
  simp only [bytes_cons, bytes_append] at hfit
  rw [stringBody_escaped _ _ _ _ _ _ (by have := Char.utf8Size_pos '"'; omega)]
  simp [Nat.add_assoc, show '"'.utf8Size = 1 from rfl]

/-! ## What a read takes -/

/-- `d` is `c` moved over a piece `t` of its text. -/
def Cursor.Passes (c d : Cursor) : Prop :=
  ∃ t, c.rest = t ++ d.rest ∧ d.pos = c.pos + bytes t ∧ d.size = c.size

namespace Cursor.Passes

variable {c d e : Cursor}

theorem refl (c : Cursor) : c.Passes c := ⟨[], by simp, by simp, rfl⟩

theorem trans (h1 : c.Passes d) (h2 : d.Passes e) : c.Passes e := by
  obtain ⟨t1, hr1, hp1, hs1⟩ := h1
  obtain ⟨t2, hr2, hp2, hs2⟩ := h2
  exact ⟨t1 ++ t2, by rw [hr1, hr2, List.append_assoc], by rw [hp2, hp1, bytes_append, Nat.add_assoc],
    hs2.trans hs1⟩

end Cursor.Passes

theorem advance_passes (c : Cursor) : c.Passes c.advance := by
  obtain ⟨rest, pos, size⟩ := c
  cases rest with
  | nil => exact Cursor.Passes.refl _
  | cons x t => exact ⟨[x], rfl, by simp [Cursor.advance], rfl⟩

theorem digits_passes (c : Cursor) : c.Passes c.digits.2 := by
  have hd : ∀ ch ∈ c.rest.takeWhile Char.isDigit, ch.isDigit = true :=
    fun ch h => List.mem_takeWhile_imp h
  exact ⟨c.rest.takeWhile Char.isDigit, (List.prefix_iff_eq_append.mp (List.takeWhile_prefix _)).symm,
    by simp [Cursor.digits, bytes_of_digits hd], rfl⟩

theorem integerPart_passes (c : Cursor) (x : Char) : c.Passes (c.integerPart x).2 := by
  unfold Cursor.integerPart
  split
  · exact advance_passes c
  · exact digits_passes c

theorem fractionPart_passes {c d : Cursor} {fs : List Char} (h : c.fractionPart = .ok (fs, d)) :
    c.Passes d := by
  unfold Cursor.fractionPart at h
  split at h
  · dsimp only at h
    split at h
    · split at h <;> simp [Cursor.peekFault] at h
    · simp only [Except.ok.injEq, Prod.mk.injEq] at h
      rw [← h.2]
      exact (advance_passes c).trans (digits_passes _)
  · simp only [Except.ok.injEq, Prod.mk.injEq] at h
    rw [← h.2]
    exact Cursor.Passes.refl c

theorem exponentSign_passes (c : Cursor) : c.Passes c.exponentSign.2 := by
  unfold Cursor.exponentSign
  split
  · exact advance_passes c
  · exact advance_passes c
  · exact Cursor.Passes.refl c

theorem exponentPart_passes {c d : Cursor} {e : Int} (h : c.exponentPart = .ok (e, d)) : c.Passes d := by
  have hsign := exponentSign_passes c
  unfold Cursor.exponentPart at h
  generalize c.exponentSign = s at h hsign
  obtain ⟨neg, c4⟩ := s
  dsimp only at h hsign
  split at h
  · simp [Cursor.fault] at h
  · split at h
    · simp [Cursor.peekFault] at h
    · simp only [Except.ok.injEq, Prod.mk.injEq] at h
      rw [← h.2]
      exact hsign.trans (digits_passes c4)

/-- A double read and paired with the place after it: the double does not depend on the place
named in a fault. -/
theorem floatOf_pair_ok {c b c2 d : Cursor} {neg : Bool} {dec : Decimal.Dec} {v : Number}
    (h : (floatOf c neg dec).map (·, c2) = .ok (v, d)) : floatOf b neg dec = .ok v ∧ d = c2 := by
  cases hf : floatOf c neg dec with
  | error e => simp [hf, Except.map] at h
  | ok w =>
    simp only [hf, Except.map, Except.ok.injEq, Prod.mk.injEq] at h
    obtain ⟨rfl, rfl⟩ := h
    refine ⟨?_, rfl⟩
    simp only [floatOf] at hf ⊢
    split at hf
    · simp [Cursor.fault] at hf
    · rwa [if_neg ‹_›]

theorem exponentEnd_passes {c2 d : Cursor} {sig : Nat} {shift : Int} {neg : Bool} {v : Number}
    (h : (match c2.advance.exponentPart with
      | .error e => .error e
      | .ok (e, c5) => (floatOf c5 neg ⟨sig, shift + e⟩).map (·, c5)) = Except.ok (v, d)) :
    c2.Passes d := by
  split at h
  · simp at h
  next e c5 hexp =>
  rw [(floatOf_pair_ok (b := c5) h).2]
  exact (advance_passes c2).trans (exponentPart_passes hexp)

theorem number_passes {c d : Cursor} {neg : Bool} {v : Number} (h : c.number neg = .ok (v, d)) :
    c.Passes d := by
  unfold Cursor.number at h
  split at h
  · simp [Cursor.fault] at h
  split at h
  · simp [Cursor.peekFault] at h
  next x t hx _ =>
  have hint := integerPart_passes c x
  generalize c.integerPart x = ip at h hint
  obtain ⟨whole, c1⟩ := ip
  dsimp only at h hint
  split at h
  · simp [Cursor.peekFault] at h
  split at h
  · simp at h
  next fs c2 hfrac =>
  have h12 := hint.trans (fractionPart_passes hfrac)
  split at h
  · exact h12.trans (exponentEnd_passes h)
  · exact h12.trans (exponentEnd_passes h)
  · split at h
    · simp only [Except.ok.injEq, Prod.mk.injEq] at h
      rw [← h.2]
      exact h12
    · rw [(floatOf_pair_ok (b := c2) h).2]
      exact h12

/-! ## Numbers wherever they stand -/

/-- What may follow a number without extending it: no digit, point or exponent mark. -/
def NumEnd (r : List Char) : Prop := ∀ y ∈ r.head?, y.isDigit = false ∧ y ≠ '.' ∧ y ≠ 'e' ∧ y ≠ 'E'

/-- `c` with `r` appended to the text it has left, moved `k` bytes on, in a text of `n` bytes. -/
def Cursor.shift (c : Cursor) (r : List Char) (k n : Nat) : Cursor := ⟨c.rest ++ r, c.pos + k, n⟩

section Shift

variable {c d : Cursor} {r : List Char} {k n : Nat}

@[simp] theorem shift_rest : (c.shift r k n).rest = c.rest ++ r := rfl

@[simp] theorem shift_pos : (c.shift r k n).pos = c.pos + k := rfl

theorem advance_shift (h : c.rest ≠ []) : (c.shift r k n).advance = c.advance.shift r k n := by
  obtain ⟨rest, pos, size⟩ := c
  cases rest with
  | nil => exact absurd rfl h
  | cons x t => simp [Cursor.shift, Cursor.advance]; omega

theorem digits_shift (hr : NumEnd r) : (c.shift r k n).digits = (c.digits.1, c.digits.2.shift r k n) := by
  have hnil : r.takeWhile Char.isDigit = [] := by
    cases r with
    | nil => rfl
    | cons y t => simp [(hr y rfl).1]
  have htw : (c.rest ++ r).takeWhile Char.isDigit = c.rest.takeWhile Char.isDigit := by
    rw [List.takeWhile_append]
    split
    · next hlen => rw [hnil, List.append_nil, (List.takeWhile_prefix _).eq_of_length hlen]
    · rfl
  simp only [Cursor.digits, Cursor.shift, htw, Prod.mk.injEq, true_and, Cursor.mk.injEq]
  exact ⟨List.drop_append_of_le_length (List.takeWhile_prefix _).length_le, by omega, trivial⟩

theorem peek_shift (h : c.rest ≠ []) : (c.shift r k n).peek = c.peek := by
  obtain ⟨rest, pos, size⟩ := c
  cases rest with
  | nil => exact absurd rfl h
  | cons x t => rfl

theorem peek_shift_nil (h : c.rest = []) : (c.shift r k n).peek = r.head? := by
  simp [Cursor.peek, h]

theorem integerPart_shift (hr : NumEnd r) (x : Char) (h : c.rest ≠ []) :
    (c.shift r k n).integerPart x = ((c.integerPart x).1, (c.integerPart x).2.shift r k n) := by
  unfold Cursor.integerPart
  split
  · rw [advance_shift h]
  · exact digits_shift hr

theorem fractionPart_shift (hr : NumEnd r) {fs : List Char} (h : c.fractionPart = .ok (fs, d)) :
    (c.shift r k n).fractionPart = .ok (fs, d.shift r k n) := by
  unfold Cursor.fractionPart at h ⊢
  by_cases hc : c.rest = []
  · have hpeek : c.peek = none := by simp [Cursor.peek, hc]
    rw [hpeek] at h
    simp only [Except.ok.injEq, Prod.mk.injEq] at h
    obtain ⟨rfl, rfl⟩ := h
    rw [peek_shift_nil hc]
    cases hh : r.head? with
    | none => rfl
    | some y => simp [(hr y hh).2.1]
  · rw [peek_shift hc]
    split at h
    · rw [advance_shift hc, digits_shift hr]
      dsimp only at h ⊢
      split at h
      · split at h <;> simp [Cursor.peekFault] at h
      · simp only [Except.ok.injEq, Prod.mk.injEq] at h
        obtain ⟨rfl, rfl⟩ := h
        simp_all
    · simp only [Except.ok.injEq, Prod.mk.injEq] at h
      obtain ⟨rfl, rfl⟩ := h
      rfl

theorem exponentSign_shift (h : c.rest ≠ []) :
    (c.shift r k n).exponentSign = (c.exponentSign.1, c.exponentSign.2.shift r k n) := by
  unfold Cursor.exponentSign
  rw [peek_shift h]
  split <;> simp [advance_shift h]

theorem exponentPart_shift (hr : NumEnd r) {e : Int} (h : c.exponentPart = .ok (e, d)) :
    (c.shift r k n).exponentPart = .ok (e, d.shift r k n) := by
  have hc : c.rest ≠ [] := by
    intro hnil
    simp [Cursor.exponentPart, Cursor.exponentSign, Cursor.peek, hnil, Cursor.fault] at h
  unfold Cursor.exponentPart at h ⊢
  rw [exponentSign_shift hc]
  generalize c.exponentSign = s at h ⊢
  obtain ⟨neg, ⟨rest, pos, size⟩⟩ := s
  cases rest with
  | nil => simp [Cursor.fault] at h
  | cons y t =>
    simp only [Cursor.shift, List.cons_append] at h ⊢
    split at h
    · simp [Cursor.peekFault] at h
    · next hy =>
      rw [if_neg hy]
      have hd := digits_shift (c := ⟨y :: t, pos, size⟩) (k := k) (n := n) hr
      simp only [Cursor.shift, List.cons_append] at hd
      rw [hd]
      simp only [Except.ok.injEq, Prod.mk.injEq] at h ⊢
      exact ⟨h.1, by rw [← h.2]⟩

theorem peek_isDigit_shift (hr : NumEnd r) :
    ((c.shift r k n).peek.map Char.isDigit).getD false = (c.peek.map Char.isDigit).getD false := by
  by_cases hc : c.rest = []
  · rw [peek_shift_nil hc, show c.peek = none by simp [Cursor.peek, hc]]
    cases hh : r.head? with
    | none => rfl
    | some y => simp [(hr y hh).1]
  · rw [peek_shift hc]

/-- The end of a number without exponent: an integer when neither point nor fraction was read,
a double otherwise. -/
theorem numberEnd_shift {whole fs : List Char} {c1 c2 : Cursor} {neg : Bool} {v : Number}
    (h : (if (fs.isEmpty && decide (c2.pos = c1.pos)) = true then
        Except.ok (integerOf neg (Decimal.digitsValue whole), c2)
      else (floatOf c2 neg ⟨Decimal.digitsValue (whole ++ fs), -(fs.length : Int)⟩).map (·, c2)) =
        Except.ok (v, d)) :
    (if (fs.isEmpty && decide ((c2.shift r k n).pos = (c1.shift r k n).pos)) = true then
        Except.ok (integerOf neg (Decimal.digitsValue whole), c2.shift r k n)
      else (floatOf (c2.shift r k n) neg ⟨Decimal.digitsValue (whole ++ fs), -(fs.length : Int)⟩).map
        (·, c2.shift r k n)) = Except.ok (v, d.shift r k n) := by
  simp only [shift_pos, Nat.add_right_cancel_iff]
  split at h
  · simp only [Except.ok.injEq, Prod.mk.injEq] at h
    obtain ⟨rfl, rfl⟩ := h
    rw [if_pos ‹_›]
  · obtain ⟨hf, rfl⟩ := floatOf_pair_ok h
    rw [if_neg ‹_›, hf]
    rfl

theorem exponentEnd_shift (hr : NumEnd r) {sig : Nat} {shift : Int} {c2 : Cursor} {neg : Bool}
    {v : Number} (h2 : c2.rest ≠ [])
    (h : (match c2.advance.exponentPart with
      | .error e => .error e
      | .ok (e, c5) => (floatOf c5 neg ⟨sig, shift + e⟩).map (·, c5)) = Except.ok (v, d)) :
    (match (c2.shift r k n).advance.exponentPart with
      | .error e => .error e
      | .ok (e, c5) => (floatOf c5 neg ⟨sig, shift + e⟩).map (·, c5)) = Except.ok (v, d.shift r k n) := by
  rw [advance_shift h2]
  split at h
  · simp at h
  next e c5 hexp =>
  rw [exponentPart_shift hr hexp]
  obtain ⟨hf, rfl⟩ := floatOf_pair_ok h
  dsimp only
  rw [hf]
  rfl

theorem number_shift (hr : NumEnd r) {neg : Bool} {v : Number} (h : c.number neg = .ok (v, d)) :
    (c.shift r k n).number neg = .ok (v, d.shift r k n) := by
  obtain ⟨x, t, hx⟩ : ∃ x t, c.rest = x :: t := by
    cases hc : c.rest with
    | nil => simp [Cursor.number, hc, Cursor.fault] at h
    | cons x t => exact ⟨x, t, rfl⟩
  have hc : c.rest ≠ [] := by simp [hx]
  unfold Cursor.number at h ⊢
  rw [hx] at h
  rw [show (c.shift r k n).rest = x :: (t ++ r) by simp [hx]]
  dsimp only at h ⊢
  split at h
  · simp [Cursor.peekFault] at h
  next hdigit =>
  rw [if_neg hdigit, integerPart_shift hr x hc]
  generalize c.integerPart x = ip at h ⊢
  obtain ⟨whole, c1⟩ := ip
  dsimp only at h ⊢
  rw [peek_isDigit_shift hr]
  split at h
  · simp [Cursor.peekFault] at h
  next hzero =>
  rw [if_neg hzero]
  split at h
  · simp at h
  next fs c2 hfrac =>
  rw [fractionPart_shift hr hfrac]
  dsimp only at h ⊢
  by_cases h2 : c2.rest = []
  · rw [show c2.peek = none by simp [Cursor.peek, h2]] at h
    rw [peek_shift_nil h2]
    split
    · next he => exact absurd rfl (hr 'e' he).2.2.1
    · next he => exact absurd rfl (hr 'E' he).2.2.2
    · exact numberEnd_shift h
  · rw [peek_shift h2]
    split at h
    · exact exponentEnd_shift hr h2 h
    · exact exponentEnd_shift hr h2 h
    · exact numberEnd_shift h

end Shift

/-! ## Integers -/

theorem digits_run {ds : List Char} (hd : ∀ ch ∈ ds, ch.isDigit) (p m : Nat) :
    (Cursor.mk ds p m).digits = (ds, ⟨[], p + ds.length, m⟩) := by
  have htw : ds.takeWhile Char.isDigit = ds := List.takeWhile_eq_self_iff.mpr hd
  simp [Cursor.digits, htw]

theorem fractionPart_end {c : Cursor} (h : c.rest = []) : c.fractionPart = .ok ([], c) := by
  simp [Cursor.fractionPart, Cursor.peek, h]

theorem number_digitRun {ds : List Char} (hd : ∀ ch ∈ ds, ch.isDigit) (hne : ds ≠ [])
    (hlead : ∀ t, ds = '0' :: t → t = []) (neg : Bool) (p m : Nat) :
    (Cursor.mk ds p m).number neg = .ok (integerOf neg (Decimal.digitsValue ds), ⟨[], p + ds.length, m⟩) := by
  obtain ⟨x, t, rfl⟩ := List.exists_cons_of_ne_nil hne
  have hx : x.isDigit = true := hd x List.mem_cons_self
  have hint : (Cursor.mk (x :: t) p m).integerPart x = (x :: t, ⟨[], p + (x :: t).length, m⟩) := by
    unfold Cursor.integerPart
    split
    · next h0 =>
      subst h0
      obtain rfl := hlead t rfl
      rfl
    · exact digits_run hd p m
  unfold Cursor.number
  simp only [hx, Bool.not_true, Bool.false_eq_true, if_false, hint]
  simp [Cursor.peek, fractionPart_end]

theorem toDigits_head_zero {n : Nat} {t : List Char} (h : Nat.toDigits 10 n = '0' :: t) : n = 0 ∧ t = [] := by
  induction n using Nat.strong_induction_on generalizing t with
  | _ n ih =>
    rw [Nat.toDigits_eq_if (by decide)] at h
    split at h
    · next hlt =>
      simp only [List.cons.injEq] at h
      obtain ⟨hd, rfl⟩ := h
      have hsmall : ∀ m < 10, m.digitChar = '0' → m = 0 := by decide
      exact ⟨hsmall n hlt hd, rfl⟩
    · next hge =>
      obtain ⟨y, u, hyu⟩ := List.exists_cons_of_ne_nil (Nat.toDigits_ne_nil (n := n / 10) (b := 10))
      rw [hyu, List.cons_append, List.cons.injEq] at h
      obtain ⟨rfl, -⟩ := h
      have := (ih (n / 10) (by omega) hyu).1
      omega

theorem isDigit_of_mem_natText {n : Nat} {ch : Char} (h : ch ∈ (toString n).toList) : ch.isDigit = true := by
  simp only [Nat.toString_eq_repr, Nat.toList_repr] at h
  exact Nat.isDigit_of_mem_toDigits (by decide) (by decide) h

theorem number_natText (n : Nat) (neg : Bool) (p m : Nat) :
    (Cursor.mk (toString n).toList p m).number neg =
      .ok (integerOf neg n, ⟨[], p + bytes (toString n).toList, m⟩) := by
  have hd : ∀ ch ∈ (toString n).toList, ch.isDigit = true := fun ch h => isDigit_of_mem_natText h
  have hds : (toString n).toList = Nat.toDigits 10 n := by simp
  rw [number_digitRun hd (by simp) (fun t h => (toDigits_head_zero (hds ▸ h)).2), bytes_of_digits hd]
  rw [show Decimal.digitsValue (toString n).toList = n by
    rw [hds]
    exact Nat.ofDigitChars_ten_toDigits]

theorem number_append {ds r : List Char} {p q m : Nat} {neg : Bool} {v : Number} (hr : NumEnd r)
    (h : (Cursor.mk ds p m).number neg = .ok (v, ⟨[], q, m⟩)) (m' : Nat) :
    (Cursor.mk (ds ++ r) p m').number neg = .ok (v, ⟨r, q, m'⟩) := by
  have := number_shift (k := 0) (n := m') hr h
  simpa [Cursor.shift] using this

end QueryAdvisor.Json
