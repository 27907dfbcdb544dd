/-!
# Rounded quotients

`roundHalfEven` divides natural numbers to the nearest whole number and sends
a quotient that lies halfway to its even neighbour. `fixedPoint` writes a
number of hundredths, thousandths and so on with that many places.
-/

namespace HotPath.Text

/-- The whole number nearest to `top / bottom`; a half goes to the even neighbour. -/
def roundHalfEven (top bottom : Nat) : Nat :=
  let floor := top / bottom
  let twice := 2 * (top % bottom)
  if twice < bottom then floor
  else if bottom < twice then floor + 1
  else if floor % 2 = 0 then floor
  else floor + 1

/-- Write `scaled / 10 ^ places` with exactly `places` digits after the point. -/
def fixedPoint (places scaled : Nat) : String :=
  let unit := Nat.pow 10 places
  let whole := toString (scaled / unit)
  if places = 0 then whole
  else
    let part := toString (scaled % unit)
    whole ++ "." ++ String.ofList (List.replicate (places - part.length) '0') ++ part

end HotPath.Text
