import TrafficKey.Decimal.Shortest

/-!
# Rounded decimal texts

A number with a fixed count of decimal places, and a number with at most six significant digits. Both
round the exact value, and a tie goes to the even digit.
-/

namespace TrafficKey.Decimal

/-- A number with `places` digits after the point. -/
def fixedText (places : Nat) (x : Float) : String :=
  match Reading.ofFloat x with
  | .undefined => "nan"
  | .infinite negative => if negative then "-inf" else "inf"
  | .finite b =>
    let (num, den) := b.ratio
    let digits := digitsOf (roundDiv (num * Nat.pow 10 places) den)
    let filled := List.replicate (places + 1 - digits.length) '0' ++ digits
    let whole := filled.take (filled.length - places)
    let rest := filled.drop (filled.length - places)
    String.ofList ((if b.negative then ['-'] else []) ++ whole ++
      (if rest.isEmpty then [] else '.' :: rest))

/-- How a number with six significant digits is laid out. -/
def roundedLayout : Layout := ⟨-4, 6, 2⟩

/-- A number with at most six significant digits and no trailing zeros. -/
def roundedText (x : Float) : String :=
  match Reading.ofFloat x with
  | .undefined => "nan"
  | .infinite negative => if negative then "-inf" else "inf"
  | .finite b =>
    let sign := if b.negative then ['-'] else []
    if b.mantissa = 0 then String.ofList (sign ++ ['0'])
    else
      let (num, den) := b.ratio
      let e := floorLog10 num den
      let (tn, td) := power 10 (e - 5)
      let n := roundDiv (num * td) (den * tn)
      let e := if n = Nat.pow 10 6 then e + 1 else e
      let body := roundedLayout.write (dropZeros (digitsOf n)) e
      let body := if body.drop (body.length - 2) == ['.', '0'] then body.take (body.length - 2) else body
      String.ofList (sign ++ body)

end TrafficKey.Decimal
