import TrafficKey.Decimal.Read

/-!
# Writing integers

An integer is written in decimal if it has at most `maxDigits` digits. A longer one has no text, and
neither has anything that names it.
-/

namespace TrafficKey.Decimal

/-- The integer has few enough digits to be written. -/
def Fits (n : Int) : Prop :=
  (Nat.toDigits 10 n.natAbs).length ≤ maxDigits

instance : DecidablePred Fits :=
  fun n => inferInstanceAs (Decidable ((Nat.toDigits 10 n.natAbs).length ≤ maxDigits))

/-- An integer in decimal, if it can be written. -/
def write? (n : Int) : Option String :=
  if Fits n then some (toString n) else none

/-- The message for an integer that cannot be written. -/
def longMessage : String :=
  "Exceeds the limit (" ++ toString maxDigits ++ " digits) for integer string conversion; " ++
    "use sys.set_int_max_str_digits() to increase the limit"

end TrafficKey.Decimal
