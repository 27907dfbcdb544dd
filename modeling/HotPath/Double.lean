import HotPath.Text.Shortest
import HotPath.Text.Rounding

/-!
# Double-precision numbers

A `Double` is its 64 bits. Two of them are equal exactly when the bits agree,
so the two zeros differ and every not-a-number keeps its payload; the numeric
comparisons (`numEq`, `numLt`, `numLe`) follow the arithmetic instead, in which the
zeros are equal and a not-a-number differs from everything.

`text` writes the fewest digits that read back, in the layout `Double.layout`.
`fixed` writes a set number of places of the exact binary value.
-/

namespace HotPath

/-- A double-precision number, given by its bits. -/
structure Double where
  bits : UInt64
deriving DecidableEq, Repr, Inhabited

namespace Double

/-- The bit that holds the sign. -/
def signBit : UInt64 := 0x8000000000000000

/-- The number with the bits of `x`. -/
def ofFloat (x : Float) : Double := ⟨x.toBits⟩

/-- The machine number with these bits. -/
def toFloat (x : Double) : Float := Float.ofBits x.bits

/-- Positive zero. -/
def zero : Double := ⟨0⟩

def add (x y : Double) : Double := ofFloat (x.toFloat + y.toFloat)

def sub (x y : Double) : Double := ofFloat (x.toFloat - y.toFloat)

def mul (x y : Double) : Double := ofFloat (x.toFloat * y.toFloat)

def div (x y : Double) : Double := ofFloat (x.toFloat / y.toFloat)

/-- Negation flips the sign bit of every number, zero and not-a-number included. -/
def neg (x : Double) : Double := ⟨x.bits ^^^ signBit⟩

/-- Numeric equality: the zeros are equal, and a not-a-number equals nothing. -/
def numEq (x y : Double) : Bool := x.toFloat == y.toFloat

def numLt (x y : Double) : Bool := x.toFloat < y.toFloat

def numLe (x y : Double) : Bool := x.toFloat ≤ y.toFloat

/-- The nearest number to an integer. -/
def ofInt64 (n : Int64) : Double := ofFloat n.toFloat

/-- Drop the fraction. Numbers outside the range go to its nearer end, and a
not-a-number goes to zero. -/
def truncate (x : Double) : Int64 := x.toFloat.toInt64

/-- The eleven bits of the exponent. -/
def exponentField (x : Double) : Nat := x.bits.toNat / 0x10000000000000 % 0x800

/-- The fifty-two bits of the fraction. -/
def fractionField (x : Double) : Nat := x.bits.toNat % 0x10000000000000

def isNegative (x : Double) : Bool := x.bits.toNat ≥ 0x8000000000000000

def isNaN (x : Double) : Bool := x.exponentField = 2047 ∧ x.fractionField ≠ 0

def isInfinite (x : Double) : Bool := x.exponentField = 2047 ∧ x.fractionField = 0

def isZero (x : Double) : Bool := x.exponentField = 0 ∧ x.fractionField = 0

/-- The magnitude of a finite number as `mantissa · 2 ^ exponent`. -/
def magnitude (x : Double) : Nat × Int :=
  if x.exponentField = 0 then (x.fractionField, -1074)
  else (0x10000000000000 + x.fractionField, (x.exponentField : Int) - 1075)

/-- The reals that round to the magnitude of a finite number other than zero. Above a
power of two the gap downwards is half as wide as the gap upwards, and the
ends round to the number exactly when its mantissa is even. -/
def interval (x : Double) : Text.Interval :=
  let (mantissa, exponent) := x.magnitude
  let narrowBelow := x.fractionField = 0 ∧ 1 < x.exponentField
  { low := 4 * mantissa - (if narrowBelow then 1 else 2)
    centre := 4 * mantissa
    high := 4 * mantissa + 2
    exponent := exponent - 2
    closed := mantissa % 2 = 0 }

/-- How the digits of a number are laid out. -/
structure Layout where
  /-- The least exponent of a leading digit that is written positionally. -/
  positionalFrom : Int
  /-- The first exponent of a leading digit that is no longer written positionally. -/
  positionalBelow : Int
  /-- What stands between the digits and the exponent. -/
  exponentMark : String
  /-- What a positional whole number ends in. -/
  wholeSuffix : String
  notANumber : String
  infinite : String
deriving Repr

/-- Numbers from `0.0001` up to and not including `10 ^ 16` are written positionally and
keep a digit after the point; all others have an exponent without a plus sign
and no idle zero. -/
def layout : Layout where
  positionalFrom := -4
  positionalBelow := 16
  exponentMark := "e"
  wholeSuffix := ".0"
  notANumber := "NaN"
  infinite := "inf"

/-- Write a decimal in a layout. -/
def Layout.write (l : Layout) (d : Text.Decimal) : String :=
  let digits := (toString d.digits).toList
  let count : Int := digits.length
  let leading := d.exponent + count - 1
  if l.positionalFrom ≤ leading ∧ leading < l.positionalBelow then
    if 0 ≤ d.exponent then
      String.ofList (digits ++ List.replicate d.exponent.toNat '0') ++ l.wholeSuffix
    else if 0 ≤ leading then
      let whole := (leading + 1).toNat
      String.ofList (digits.take whole ++ '.' :: digits.drop whole)
    else
      String.ofList ('0' :: '.' :: List.replicate (-leading - 1).toNat '0' ++ digits)
  else
    let mantissa := match digits with
      | [] => []
      | [d] => [d]
      | d :: rest => d :: '.' :: rest
    String.ofList mantissa ++ l.exponentMark ++ toString leading

/-- The text of a number: the fewest digits that read back as the same number. -/
def text (x : Double) : String :=
  if x.isNaN then layout.notANumber
  else
    let sign := if x.isNegative then "-" else ""
    if x.isInfinite then sign ++ layout.infinite
    else if x.isZero then sign ++ "0" ++ layout.wholeSuffix
    else sign ++ layout.write x.interval.shortest

/-- The exact value rounded to `places` digits after the point; a half goes to the even digit. -/
def fixed (places : Nat) (x : Double) : String :=
  if x.isNaN then layout.notANumber
  else
    let sign := if x.isNegative then "-" else ""
    if x.isInfinite then sign ++ layout.infinite
    else
      let (mantissa, exponent) := x.magnitude
      let scaled := Text.roundHalfEven
        (mantissa * Nat.pow 2 exponent.toNat * Nat.pow 10 places) (Nat.pow 2 (-exponent).toNat)
      sign ++ Text.fixedPoint places scaled

end Double

end HotPath
