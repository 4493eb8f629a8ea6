import QueryAdvisor.Decimal.Shortest
/-!
# Reading a decimal as a double

A decimal `digits · 10^exp` is rounded to the nearest double, ties to even, by core's
`Float.ofScientific`. Values too large for a double become an infinity and values below half
the least subnormal become zero; both are decided before the exact rounding, so that an
exponent of any size costs nothing.

`readFloat?` accepts the usual text of a floating-point number: an optional sign, then
`inf`, `infinity` or `nan` in any case, or digits with an optional point and an optional
exponent, with at least one digit before or after the point.
-/

namespace QueryAdvisor.Decimal

/-- The double nearest to `digits · 10^exp`, with the sign given apart. -/
def Dec.toFloat (negative : Bool) (d : Dec) : Float :=
  let size := (digitCount d.digits : Int) + d.exp
  let magnitude : Float :=
    if d.digits = 0 then 0
    else if 310 < size then Float.ofScientific 1 false 400
    else if size < -330 then 0
    else Float.ofScientific d.digits (d.exp < 0) d.exp.natAbs
  if negative then -magnitude else magnitude

/-- Splits off a run of decimal digits. -/
def spanDigits (cs : List Char) : List Char × List Char :=
  (cs.takeWhile Char.isDigit, cs.dropWhile Char.isDigit)

/-- The value of a run of decimal digits. -/
def digitsValue (ds : List Char) : Nat :=
  ds.foldl (fun acc c => 10 * acc + (c.toNat - '0'.toNat)) 0

/-- Reads `digits [. digits] [e [sign] digits]`, all of the text, as a decimal. -/
def readDecimal? (cs : List Char) : Option Dec :=
  let (whole, rest) := spanDigits cs
  let (frac, rest) :=
    match rest with
    | '.' :: more => spanDigits more
    | _ => ([], rest)
  if whole.isEmpty && frac.isEmpty then none
  else
    let mantissa := digitsValue (whole ++ frac)
    let shift : Int := -(frac.length : Int)
    match rest with
    | [] => some ⟨mantissa, shift⟩
    | c :: more =>
      if c = 'e' || c = 'E' then
        let (negExp, more) :=
          match more with
          | '-' :: m => (true, m)
          | '+' :: m => (false, m)
          | m => (false, m)
        let (expDigits, tail) := spanDigits more
        if expDigits.isEmpty || !tail.isEmpty then none
        else
          let e : Int := digitsValue expDigits
          some ⟨mantissa, shift + (if negExp then -e else e)⟩
      else none

/-- Reads the text of a floating-point number; no blank may stand around it. -/
def readFloat? (s : String) : Option Float :=
  let (negative, body) :=
    match s.toList with
    | '-' :: r => (true, r)
    | '+' :: r => (false, r)
    | r => (false, r)
  let word := String.ofList (body.map Char.toLower)
  if word = "inf" || word = "infinity" then
    some (if negative then -(Float.ofScientific 1 false 400) else Float.ofScientific 1 false 400)
  else if word = "nan" then some (0.0 / 0.0)
  else (readDecimal? body).map (Dec.toFloat negative)

end QueryAdvisor.Decimal
