/-!
# Fields of a listing

Listings and reports line up their columns: an address has four digits, a
byte two hexadecimal ones, a name is filled up with blanks. The functions here
write one such field. `padStart` and `padEnd` count characters and never cut:
a text that is already wide enough is left alone.
-/

namespace HotPath.Text

/-- Fill `text` up to `width` characters by putting `fill` in front of it. -/
def padStart (width : Nat) (fill : Char) (text : String) : String :=
  String.ofList (List.replicate (width - text.length) fill) ++ text

/-- Fill `text` up to `width` characters by putting blanks after it. -/
def padEnd (width : Nat) (text : String) : String :=
  text ++ String.ofList (List.replicate (width - text.length) ' ')

/-- Write `number` in decimal with leading zeros; a minus sign comes before
the zeros and counts towards the width. -/
def zeroPadded (width : Nat) (number : Int) : String :=
  if number < 0 then
    "-" ++ padStart (width - 1) '0' (toString number.natAbs)
  else
    padStart width '0' (toString number.natAbs)

/-- Write `number` with its sign, also when it is zero or positive. -/
def signed (number : Int) : String :=
  if number < 0 then "-" ++ toString number.natAbs else "+" ++ toString number.natAbs

/-- The two lower-case hexadecimal digits of a byte. -/
def hexByte (byte : UInt8) : String :=
  String.ofList [Nat.digitChar (byte.toNat / 16), Nat.digitChar (byte.toNat % 16)]

/-- The hexadecimal digits of a sequence of bytes, two for each byte. -/
def hex (bytes : List UInt8) : String :=
  String.join (bytes.map hexByte)

/-- The value of one hexadecimal digit, in either case. -/
def hexDigit? (c : Char) : Option Nat :=
  if '0' ≤ c ∧ c ≤ '9' then some (c.toNat - '0'.toNat)
  else if 'a' ≤ c ∧ c ≤ 'f' then some (c.toNat - 'a'.toNat + 10)
  else if 'A' ≤ c ∧ c ≤ 'F' then some (c.toNat - 'A'.toNat + 10)
  else none

/-- Read bytes written as pairs of hexadecimal digits. -/
def unhex? : List Char → Option (List UInt8)
  | [] => some []
  | [_] => none
  | high :: low :: rest => do
    let high ← hexDigit? high
    let low ← hexDigit? low
    let bytes ← unhex? rest
    return UInt8.ofNat (16 * high + low) :: bytes

/-- Each of `lines` followed by a line feed. -/
def unlines (lines : List String) : String :=
  String.join (lines.map (· ++ "\n"))

end HotPath.Text
