import QueryAdvisor.Decimal.Shortest
/-!
# Writing a double as text

Two decisions make the text of a double: which digits (the shortest decimal that reads
back, `Binary.shortest`, or a fixed number of places rounded from the exact value), and how
they are laid out. The layout decisions of each format are one `Layout` value, named for the
place that writes it: `Layout.plain` for values inside messages and SQL, `Layout.debug` for
the structural dump of a configuration, `Layout.json` for numbers in JSON documents.
-/

namespace QueryAdvisor.Decimal

/-- The layout decisions of one output format. -/
structure Layout where
  /-- Leading exponents `e` with `plainFrom ≤ e` are written positionally, if also below
  `plainBelow`; all others in scientific form `d.ddde-7`. -/
  plainFrom : Int
  /-- The first leading exponent that is written in scientific form again. -/
  plainBelow : Int
  /-- An integral value keeps a point and a zero: `12.0` rather than `12`. -/
  pointZero : Bool
  /-- A positive exponent is written with its sign: `1e+16` rather than `1e16`. -/
  exponentPlus : Bool
  /-- Which of two equally near shortest decimals is written. -/
  tie : Tie
  /-- The text of not-a-number. -/
  nan : String
  /-- The text of positive infinity. -/
  inf : String
  /-- The text of negative infinity. -/
  negInf : String

/-- Positional for every double, integral values without a point, ties upwards. -/
def Layout.plain : Layout where
  plainFrom := -400
  plainBelow := 400
  pointZero := false
  exponentPlus := false
  tie := .up
  nan := "NaN"
  inf := "inf"
  negInf := "-inf"

/-- Positional from `1e-4` up to below `1e16`, always with a fraction, ties upwards. -/
def Layout.debug : Layout where
  plainFrom := -4
  plainBelow := 16
  pointZero := true
  exponentPlus := false
  tie := .up
  nan := "NaN"
  inf := "inf"
  negInf := "-inf"

/-- Positional from `1e-5` up to below `1e16`, always with a fraction, positive exponents with
their sign, ties to even; JSON has no text for the special values and writes `null` for them. -/
def Layout.json : Layout where
  plainFrom := -5
  plainBelow := 16
  pointZero := true
  exponentPlus := true
  tie := .toEven
  nan := "null"
  inf := "null"
  negInf := "null"

/-- `n` zeros. -/
def zeros (n : Nat) : String := String.ofList (List.replicate n '0')

/-- The digits `ds` times `10^e`, written with a point where it falls. -/
def positional (ds : String) (e : Int) (pointZero : Bool) : String :=
  let n := ds.length
  if 0 ≤ e then
    ds ++ zeros e.toNat ++ (if pointZero then ".0" else "")
  else if (-e).toNat < n then
    let cut := n - (-e).toNat
    String.ofList (ds.toList.take cut) ++ "." ++ String.ofList (ds.toList.drop cut)
  else
    "0." ++ zeros ((-e).toNat - n) ++ ds

/-- The digits `ds` times `10^e` in scientific form: one digit before the point, and the
exponent with a plus sign if `plus` and it is positive. -/
def scientific (ds : String) (e : Int) (plus : Bool) : String :=
  let lead := e + ds.length - 1
  let head := String.ofList (ds.toList.take 1)
  let tail := String.ofList (ds.toList.drop 1)
  head ++ (if tail.isEmpty then "" else "." ++ tail) ++ "e" ++ (if plus && 0 < lead then "+" else "") ++ toString lead

/-- Lays out a decimal, zero included, without its sign. -/
def Layout.decimal (l : Layout) (d : Dec) : String :=
  let ds := toString d.digits
  let lead := d.exp + ds.length - 1
  if d.digits = 0 || (l.plainFrom ≤ lead && lead < l.plainBelow) then
    positional ds d.exp l.pointZero
  else
    scientific ds d.exp l.exponentPlus

/-- The text of a double in this layout. -/
def Layout.write (l : Layout) (x : Float) : String :=
  match Double.ofFloat x with
  | .nan => l.nan
  | .infinite negative => if negative then l.negInf else l.inf
  | .finite negative b =>
    (if negative then "-" else "") ++ l.decimal (b.shortest l.tie)

/-- The text of a double rounded to `places` digits after the point: the exact value is
rounded, a half goes to the even neighbour, and the sign of a negative value stays even when
its digits are all zero. -/
def fixed (x : Float) (places : Nat) : String :=
  match Double.ofFloat x with
  | .nan => "NaN"
  | .infinite negative => if negative then "-inf" else "inf"
  | .finite negative b =>
    let r := toString (b.roundOn (-(places : Int)))
    let padded := zeros (places + 1 - r.length) ++ r
    let cut := padded.length - places
    let body :=
      if places = 0 then padded
      else String.ofList (padded.toList.take cut) ++ "." ++ String.ofList (padded.toList.drop cut)
    (if negative then "-" else "") ++ body

end QueryAdvisor.Decimal
