/-!
# The fewest decimal digits that read back

A finite double is `m · 2^q`. The reals that round to it form an interval around it, from
halfway to the double below to halfway to the double above, the ends included exactly when
`m` is even. The selection below walks the decimal grids `10^g` from the coarsest that can
hold a digit of the value downwards, and on each grid tests the two neighbours of the value
by exact comparison of naturals. The first grid with a neighbour in the interval gives the
fewest digits; of two neighbours in the interval the nearer one is taken, and an exact tie
goes by a rule the caller picks.

If a point of a grid lies in the interval, then so does one of the two neighbours of the
value on that grid, since they lie between that point and the value. So no coarser grid
holds a point of the interval, which is what makes the first hit the shortest decimal.
-/

namespace QueryAdvisor.Decimal

/-- A finite non-negative double, `m * 2^q`. -/
structure Binary where
  m : Nat
  q : Int
  /-- The gap to the double below is half the gap to the double above: `m` is the least
  normal mantissa and the value is no subnormal. -/
  narrowBelow : Bool
deriving Repr, DecidableEq

/-- A decimal `digits * 10^exp`. -/
structure Dec where
  digits : Nat
  exp : Int
deriving Repr, DecidableEq

/-- Which of two equally near candidates wins. -/
inductive Tie where
  | toEven
  | up
deriving Repr, DecidableEq

/-- What a double is: a finite value with its sign, an infinity with its sign, or not a
number. -/
inductive Double where
  | finite (negative : Bool) (value : Binary)
  | infinite (negative : Bool)
  | nan
deriving Repr, DecidableEq

/-- Reads the bit pattern of a double. -/
def Double.ofBits (b : UInt64) : Double :=
  let negative := b >>> 63 == 1
  let e := ((b >>> 52) &&& 0x7FF).toNat
  let f := (b &&& 0xFFFFFFFFFFFFF).toNat
  if e == 0x7FF then
    if f == 0 then .infinite negative else .nan
  else if e == 0 then .finite negative ⟨f, -1074, false⟩
  else .finite negative ⟨Nat.pow 2 52 + f, (e : Int) - 1075, f == 0 && e > 1⟩

/-- The class of a float. -/
def Double.ofFloat (x : Float) : Double := Double.ofBits x.toBits

/-- Compares `a * 10^i` with `n * 2^j`, exactly. -/
def cmpScaled (a : Nat) (i : Int) (n : Nat) (j : Int) : Ordering :=
  compare (a * Nat.pow 10 i.toNat * Nat.pow 2 (-j).toNat) (n * Nat.pow 2 j.toNat * Nat.pow 10 (-i).toNat)

/-- The test: `d` lies among the reals that round to `x`, to nearest with ties to even. -/
def Binary.readsBack (x : Binary) (d : Dec) : Bool :=
  let lo := if x.narrowBelow then 4 * x.m - 1 else 4 * x.m - 2
  let hi := 4 * x.m + 2
  let incl := x.m % 2 == 0
  let cl := cmpScaled d.digits d.exp lo (x.q - 2)
  let ch := cmpScaled d.digits d.exp hi (x.q - 2)
  (cl == .gt || (incl && cl == .eq)) && (ch == .lt || (incl && ch == .eq))

/-- The number of decimal digits of `n`, with `0` counted as one digit. -/
def digitCount (n : Nat) : Nat := (Nat.toDigits 10 n).length

/-- The value as a fraction `num / den`. -/
def Binary.num (x : Binary) : Nat := x.m * Nat.pow 2 x.q.toNat

/-- The denominator of the value. -/
def Binary.den (x : Binary) : Nat := Nat.pow 2 (-x.q).toNat

/-- The exponent of the leading digit: the `E` with `10^E ≤ x < 10^(E+1)`, for `x > 0`. -/
def Binary.leadExp (x : Binary) : Int :=
  if x.den ≤ x.num then
    (digitCount (x.num / x.den) : Int) - 1
  else
    let a := digitCount (x.den / x.num) - 1
    if x.num * Nat.pow 10 a = x.den then -(a : Int) else -((a : Int) + 1)

/-- The value divided by `10^g`, rounded down. -/
def Binary.floorOn (x : Binary) (g : Int) : Nat :=
  (x.num * Nat.pow 10 (-g).toNat) / (x.den * Nat.pow 10 g.toNat)

/-- The neighbour of the value on the grid `10^g` that reads back, if one does. -/
def Binary.pick (x : Binary) (tie : Tie) (g : Int) : Option Dec :=
  let lo := x.floorOn g
  let below : Dec := ⟨lo, g⟩
  let above : Dec := ⟨lo + 1, g⟩
  match x.readsBack below, x.readsBack above with
  | false, false => none
  | true, false => some below
  | false, true => some above
  | true, true =>
    match cmpScaled (2 * lo + 1) g (8 * x.m) (x.q - 2), tie with
    | .gt, _ => some below
    | .lt, _ => some above
    | .eq, .up => some above
    | .eq, .toEven => if lo % 2 == 0 then some below else some above

/-- Moves trailing zeros of the digits into the exponent. -/
def Dec.strip (d : Dec) : Dec :=
  if h : d.digits ≠ 0 ∧ d.digits % 10 = 0 then
    Dec.strip ⟨d.digits / 10, d.exp + 1⟩
  else d
termination_by d.digits
decreasing_by exact Nat.div_lt_self (Nat.pos_of_ne_zero h.1) (by decide)

/-- The exact decimal value of `m * 2^q`. -/
def Binary.exact (x : Binary) : Dec :=
  if 0 ≤ x.q then ⟨x.m * Nat.pow 2 x.q.toNat, 0⟩ else ⟨x.m * Nat.pow 5 (-x.q).toNat, x.q⟩

/-- The shortest decimal that reads back as `x`, nearest of those, ties by `tie`; zero is
`0 * 10^0`. Seventeen digits always suffice; the exact value stands behind the search. -/
def Binary.shortest (x : Binary) (tie : Tie) : Dec :=
  if x.m = 0 then ⟨0, 0⟩
  else
    let top := x.leadExp
    match (List.range 17).findSome? (fun (n : Nat) => x.pick tie (top - (n : Int))) with
    | some d => d.strip
    | none => x.exact.strip

/-- The value rounded to a multiple of `10^g`: the quotient, rounded to nearest, ties to
even. -/
def Binary.roundOn (x : Binary) (g : Int) : Nat :=
  let num := x.num * Nat.pow 10 (-g).toNat
  let den := x.den * Nat.pow 10 g.toNat
  let q := num / den
  let r := num % den
  match compare (2 * r) den with
  | .lt => q
  | .gt => q + 1
  | .eq => if q % 2 == 0 then q else q + 1

end QueryAdvisor.Decimal
