/-!
# Shortest decimals

The text of a double is made of the fewest decimal digits that read back as the same double; of
several decimals of that length the nearest is taken, and an exact tie goes to the even digit. All
comparisons are exact, over natural numbers.
-/

namespace ComponentTags.Decimal

/-- A positive finite double `m * 2 ^ q`. -/
structure Binary where
  m : Nat
  q : Int
  /-- The gap to the next smaller double is half the gap to the next larger one. -/
  narrowBelow : Bool
  deriving DecidableEq, Repr

/-- A decimal `digits * 10 ^ exponent`. -/
structure Scaled where
  digits : Nat
  exponent : Int
  deriving DecidableEq, Repr

/-- Decodes the bits of a finite double, apart from the sign. -/
def Binary.ofBits (bits : UInt64) : Binary :=
  let exponent : Nat := (bits.toNat / Nat.pow 2 52) % Nat.pow 2 11
  let fraction := bits.toNat % Nat.pow 2 52
  if exponent = 0 then ⟨fraction, -1074, false⟩
  else ⟨Nat.pow 2 52 + fraction, (exponent : Int) - 1075, fraction = 0 && 1 < exponent⟩

/-- Compares `a * 10 ^ i` with `n * 2 ^ j`. -/
def compareScaled (a : Nat) (i : Int) (n : Nat) (j : Int) : Ordering :=
  compare (a * Nat.pow 10 i.toNat * Nat.pow 2 (-j).toNat)
    (n * Nat.pow 2 j.toNat * Nat.pow 10 (-i).toNat)

/-- Whether a decimal is rounded to the double: it lies between the middles to its two neighbours, which
count themselves when `m` is even. -/
def Binary.readsBack (x : Binary) (d : Scaled) : Bool :=
  let low := if x.narrowBelow then 4 * x.m - 1 else 4 * x.m - 2
  let high := 4 * x.m + 2
  let closed := x.m % 2 = 0
  let atLow := compareScaled d.digits d.exponent low (x.q - 2)
  let atHigh := compareScaled d.digits d.exponent high (x.q - 2)
  (atLow = .gt || (closed && atLow = .eq)) && (atHigh = .lt || (closed && atHigh = .eq))

/-- The largest multiple of `10 ^ exponent` that is not above the double. -/
def Binary.floorOn (x : Binary) (exponent : Int) : Nat :=
  (x.m * Nat.pow 2 x.q.toNat * Nat.pow 10 (-exponent).toNat) /
    (Nat.pow 2 (-x.q).toNat * Nat.pow 10 exponent.toNat)

/-- The least `k` with `x < 10 ^ k`, sought upwards from `k`. -/
def Binary.scaleFrom (x : Binary) : Nat → Int → Int
  | 0, k => k
  | fuel + 1, k => if compareScaled 1 k x.m x.q = .gt then k else scaleFrom x fuel (k + 1)

/-- The least `k` with `x < 10 ^ k`. The search starts below it: `m * 2 ^ q` is at least `2 ^ (log2 m + q)`,
and `30103 / 100000` is the decimal logarithm of two, rounded up in its last place. -/
def Binary.scale (x : Binary) : Int :=
  let binary : Int := x.m.log2 + x.q
  x.scaleFrom 8 (binary * 30103 / 100000 - 2)

/-- The better of the two neighbours of the double on the grid of multiples of `10 ^ exponent`, if one of
them reads back. -/
def Binary.onGrid? (x : Binary) (exponent : Int) : Option Scaled :=
  let below : Scaled := ⟨x.floorOn exponent, exponent⟩
  let above : Scaled := ⟨below.digits + 1, exponent⟩
  if x.readsBack below then
    if x.readsBack above then
      match compareScaled (2 * below.digits + 1) exponent (2 * x.m) x.q with
      | .lt => some above
      | .gt => some below
      | .eq => some (if below.digits % 2 = 0 then below else above)
    else some below
  else if x.readsBack above then some above
  else none

/-- The decimal with trailing zeros moved from its digits into its exponent. -/
def withoutTrailingZeros (digits : Nat) (exponent : Int) : Scaled :=
  if digits % 10 = 0 ∧ digits ≠ 0 then withoutTrailingZeros (digits / 10) (exponent + 1)
  else ⟨digits, exponent⟩
termination_by digits
decreasing_by omega

/-- The exact value of the double as a decimal. -/
def Binary.exact (x : Binary) : Scaled :=
  if 0 ≤ x.q then ⟨x.m * Nat.pow 2 x.q.toNat, 0⟩ else ⟨x.m * Nat.pow 5 (-x.q).toNat, x.q⟩

/-- The shortest decimal that reads back: the grids of one digit, two digits and so on are tried in
order. Seventeen digits are always enough. -/
def Binary.shortest (x : Binary) : Scaled :=
  let grids := (List.range 17).map fun (n : Nat) => x.scale - 1 - (n : Int)
  let best := (grids.findSome? x.onGrid?).getD x.exact
  withoutTrailingZeros best.digits best.exponent

end ComponentTags.Decimal
