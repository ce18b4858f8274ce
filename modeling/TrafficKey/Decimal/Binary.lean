/-!
# Binary numbers as exact fractions

A floating-point number is a mantissa times a power of two. All decimal texts are computed from this
exact form in integer arithmetic.
-/

namespace TrafficKey.Decimal

/-- The number `mantissa * 2 ^ exponent`, with a sign. -/
structure Binary where
  negative : Bool
  mantissa : Nat
  exponent : Int
deriving DecidableEq, Repr

/-- What a floating-point number stands for. -/
inductive Reading where
  | finite (value : Binary)
  | infinite (negative : Bool)
  | undefined
deriving DecidableEq, Repr

/-- Reads the sign, exponent and fraction fields of a double. -/
def Reading.ofFloat (x : Float) : Reading :=
  let bits := x.toBits.toNat
  let negative := bits / Nat.pow 2 63 == 1
  let exponent : Nat := bits / Nat.pow 2 52 % Nat.pow 2 11
  let fraction : Nat := bits % Nat.pow 2 52
  if exponent = 2047 then
    if fraction = 0 then .infinite negative else .undefined
  else if exponent = 0 then .finite ⟨negative, fraction, -1074⟩
  else .finite ⟨negative, fraction + Nat.pow 2 52, (exponent : Int) - 1075⟩

/-- `base ^ e` as a fraction of natural numbers. -/
def power (base : Nat) (e : Int) : Nat × Nat :=
  if 0 ≤ e then (base.pow e.toNat, 1) else (1, base.pow e.natAbs)

/-- The size of a number as a fraction. -/
def Binary.ratio (b : Binary) : Nat × Nat :=
  let (n, d) := power 2 b.exponent
  (b.mantissa * n, d)

/-- The integer nearest to `num / den`; a tie goes to the even one. -/
def roundDiv (num den : Nat) : Nat :=
  let q := num / den
  let r := num % den
  if den < 2 * r || (2 * r == den && q % 2 == 1) then q + 1 else q

/-- The greatest `e` with `10 ^ e ≤ num / den`, for a positive fraction no smaller than the least
double. -/
def floorLog10 (num den : Nat) : Int :=
  if den ≤ num then ((Nat.toDigits 10 (num / den)).length : Int) - 1
  else
    match (List.range 400).find? fun j => den ≤ num * Nat.pow 10 (j + 1) with
    | some j => -((j : Int) + 1)
    | none => -400

/-- The decimal digits of a number. -/
def digitsOf (n : Nat) : List Char :=
  Nat.toDigits 10 n

/-- A digit string without its trailing zeros. -/
def dropZeros (digits : List Char) : List Char :=
  (digits.reverse.dropWhile (· == '0')).reverse

end TrafficKey.Decimal
