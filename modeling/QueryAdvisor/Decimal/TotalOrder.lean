/-!
# The total order of doubles

Doubles ordered by sign and magnitude as their bits say: negative not-a-numbers first, then
negative infinity, the negative numbers, negative zero, positive zero, the positive numbers,
positive infinity and positive not-a-numbers. Unlike `≤` this order is total, and it tells
the two zeros apart.
-/

namespace QueryAdvisor.Decimal

/-- The key whose unsigned order is the total order of doubles. -/
def totalKey (x : Float) : UInt64 :=
  let b := x.toBits
  if b >>> 63 == 1 then ~~~b else b ||| 0x8000000000000000

/-- `x` comes no later than `y` in the total order. -/
def totalLe (x y : Float) : Bool := totalKey x ≤ totalKey y

/-- `x` comes before `y` in the total order. -/
def totalLt (x y : Float) : Bool := totalKey x < totalKey y

end QueryAdvisor.Decimal
