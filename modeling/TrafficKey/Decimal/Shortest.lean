import TrafficKey.Decimal.Binary

/-!
# The shortest decimal text of a number

The fewest digits that read back as the same double, and of these the decimal nearest to it. For 1 to
17 digits, the two neighbours of the number on the grid of decimals with that many digits are tried.
-/

namespace TrafficKey.Decimal

/-- The decimals `digits * 10 ^ exponent`. -/
structure Scaled where
  digits : Nat
  exponent : Int
deriving DecidableEq, Repr

/-- The reals that read as a double lie between its two half-way points, counted in quarters of the
double's unit. Below a power of two the lower half-way point is nearer. -/
def Binary.bounds (b : Binary) : Nat × Nat :=
  let m := 4 * b.mantissa
  (if b.mantissa = Nat.pow 2 52 ∧ -1074 < b.exponent then m - 1 else m - 2, m + 2)

/-- Whether a decimal reads back as the double `b`; the half-way points do iff the mantissa is even. -/
def Binary.reads (b : Binary) (s : Scaled) : Bool :=
  let (low, high) := b.bounds
  let (un, ud) := power 2 (b.exponent - 2)
  let (tn, td) := power 10 s.exponent
  let value := s.digits * tn * ud
  let low := low * un * td
  let high := high * un * td
  if b.mantissa % 2 = 0 then low ≤ value && value ≤ high else low < value && value < high

/-- The better of the two decimals with `n` digits around a positive double whose first digit has
weight `10 ^ e`. -/
def Binary.withDigits? (b : Binary) (e : Int) (n : Nat) : Option Scaled :=
  let k := e - n + 1
  let (num, den) := b.ratio
  let (tn, td) := power 10 k
  let c := num * td / (den * tn)
  let below : Scaled := ⟨c, k⟩
  let above : Scaled := ⟨c + 1, k⟩
  match b.reads below, b.reads above with
  | true, true => some ⟨roundDiv (num * td) (den * tn), k⟩
  | true, false => some below
  | false, true => some above
  | false, false => none

/-- The shortest decimal that reads back as a positive double. -/
def Binary.shortest (b : Binary) : Scaled :=
  let (num, den) := b.ratio
  let e := floorLog10 num den
  match (List.range 17).findSome? fun i => b.withDigits? e (i + 1) with
  | some s => s
  | none => ⟨roundDiv num den, 0⟩

/-- How the shortest digits are laid out. -/
structure Layout where
  /-- the least exponent of the first digit that is written without an exponent -/
  least : Int
  /-- the exponent of the first digit from which on an exponent is written -/
  limit : Int
  /-- the least number of digits of an exponent -/
  exponentWidth : Nat

/-- Numbers from 0.0001 up to 10^16 are written without an exponent, an exponent has at least two
digits. -/
def valueLayout : Layout := ⟨-4, 16, 2⟩

/-- The exponent part, with its sign. -/
def Layout.exponentText (l : Layout) (e : Int) : List Char :=
  let digits := digitsOf e.natAbs
  'e' :: (if e < 0 then '-' else '+') ::
    (List.replicate (l.exponentWidth - digits.length) '0' ++ digits)

/-- Digits, without trailing zeros, of a number whose first digit has weight `10 ^ e`. -/
def Layout.write (l : Layout) (digits : List Char) (e : Int) : List Char :=
  if l.least ≤ e && e < l.limit then
    if e < 0 then '0' :: '.' :: (List.replicate (e.natAbs - 1) '0' ++ digits)
    else
      let whole := digits.take (e.toNat + 1)
      let rest := digits.drop (e.toNat + 1)
      whole ++ List.replicate (e.toNat + 1 - whole.length) '0' ++
        '.' :: (if rest.isEmpty then ['0'] else rest)
  else
    match digits with
    | [] => []
    | d :: rest => d :: (if rest.isEmpty then [] else '.' :: rest) ++ l.exponentText e

/-- The shortest text of a number. -/
def shortestText (x : Float) : String :=
  match Reading.ofFloat x with
  | .undefined => "nan"
  | .infinite negative => if negative then "-inf" else "inf"
  | .finite b =>
    let sign := if b.negative then ['-'] else []
    if b.mantissa = 0 then String.ofList (sign ++ ['0', '.', '0'])
    else
      let s := b.shortest
      let digits := digitsOf s.digits
      let e := s.exponent + digits.length - 1
      String.ofList (sign ++ valueLayout.write (dropZeros digits) e)

end TrafficKey.Decimal
