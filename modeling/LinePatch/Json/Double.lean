/-!
# Natural numbers as doubles

A double holds fifty-three binary places, so that greater natural numbers are rounded to it. The
nearest one is taken, and of two that are equally near the one whose last place is even.

## Main definitions

* `Json.Double.round`: the double nearest to a natural number.
* `Json.Double.bound`: where the doubles end.
-/

namespace LinePatch.Json.Double

/-- The number of binary places of a double. -/
def places : Nat := 53

/-- The least number that is rounded beyond the greatest double, half a step above it. -/
def bound : Nat := 1 <<< 1024 - 1 <<< 970

/-- The multiple of `step` that is nearest to a number. Half a step goes to the even multiple. -/
def roundTo (step n : Nat) : Nat :=
  let below := n / step
  let rest := n % step
  if step < 2 * rest ∨ (step = 2 * rest ∧ below % 2 = 1) then (below + 1) * step
  else below * step

/-- The double nearest to a natural number, where doubles do not end. -/
def round (n : Nat) : Nat :=
  roundTo (1 <<< (n.log2 + 1 - places)) n

end LinePatch.Json.Double
