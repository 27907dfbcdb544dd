/-!
# The fewest digits that read back

A binary floating-point number stands for every real that rounds to it. Of
the decimals in that interval, `Interval.shortest` picks the ones with the
fewest digits and of those the nearest to the number itself; two equally near
ones are settled upwards. Everything is exact arithmetic on natural numbers,
so the choice depends on the interval alone.

The search rests on one fact. If any multiple of a power of ten lies in the
interval, then one of the two multiples next to the number does, so for each
count of digits only those two are tried.
-/

namespace HotPath.Text

/-- A decimal `digits · 10 ^ exponent`. -/
structure Decimal where
  digits : Nat
  exponent : Int
deriving DecidableEq, Repr

/-- The reals between `low · 2 ^ exponent` and `high · 2 ^ exponent`, which all
round to `centre · 2 ^ exponent`. The two ends belong to it when `closed`. -/
structure Interval where
  low : Nat
  centre : Nat
  high : Nat
  exponent : Int
  closed : Bool
deriving DecidableEq, Repr

namespace Interval

/-- `(numerator scale c) / (denominator scale)` is `c · 2 ^ exponent / 10 ^ scale`. -/
def numerator (i : Interval) (scale : Int) (c : Nat) : Nat :=
  c * Nat.pow 2 i.exponent.toNat * Nat.pow 10 (-scale).toNat

@[inherit_doc numerator]
def denominator (i : Interval) (scale : Int) : Nat :=
  Nat.pow 2 (-i.exponent).toNat * Nat.pow 10 scale.toNat

/-- Whether `digits · 10 ^ scale` lies in the interval. -/
def holds (i : Interval) (scale : Int) (digits : Nat) : Bool :=
  let point := digits * i.denominator scale
  if i.closed then
    i.numerator scale i.low ≤ point && point ≤ i.numerator scale i.high
  else
    i.numerator scale i.low < point && point < i.numerator scale i.high

/-- The multiple of `10 ^ scale` in the interval that is nearest to its centre,
if there is one. Of two equally near ones it is the larger. -/
def nearest? (i : Interval) (scale : Int) : Option Nat :=
  let top := i.numerator scale i.centre
  let bottom := i.denominator scale
  let floor := top / bottom
  match i.holds scale floor, i.holds scale (floor + 1) with
  | true, true => if 2 * top < (2 * floor + 1) * bottom then some floor else some (floor + 1)
  | true, false => some floor
  | false, true => some (floor + 1)
  | false, false => none

/-- The exponent of the leading digit: `10 ^ e ≤ centre · 2 ^ exponent < 10 ^ (e + 1)`.
The leading binary digit decides it up to one. For that, 0.30103 is close enough to the
decimal logarithm of two as long as no exponent of two goes beyond 2000. -/
def leading (i : Interval) : Int :=
  let least := (i.exponent + i.centre.log2) * 30103 / 100000
  if i.denominator (least + 1) ≤ i.numerator (least + 1) i.centre then least + 1 else least

/-- Drop trailing zeros into the exponent. At most `fuel` zeros are dropped. -/
def dropZeros : (fuel : Nat) → Decimal → Decimal
  | 0, d => d
  | fuel + 1, d =>
    if d.digits % 10 = 0 ∧ d.digits ≠ 0 then
      dropZeros fuel ⟨d.digits / 10, d.exponent + 1⟩
    else d

/-- Seventeen digits tell any two double-precision numbers apart. -/
def mostDigits : Nat := 17

/-- The decimal in the interval with the fewest digits, nearest to its centre. -/
def shortest (i : Interval) : Decimal :=
  let leading := i.leading
  let found := (List.range mostDigits).findSome? fun (extra : Nat) =>
    let scale := leading - extra
    (i.nearest? scale).map fun digits => Decimal.mk digits scale
  match found with
  | some decimal => dropZeros (mostDigits + 1) decimal
  | none => ⟨0, 0⟩

end Interval

end HotPath.Text
