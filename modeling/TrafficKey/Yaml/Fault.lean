import TrafficKey.Decimal.Read
import TrafficKey.Text.Quoted

/-!
# Faults of YAML texts

Why a text has no data. Most faults only say that the text is not YAML. The others are values that look like
those of their type, or are tagged as such, but are none; they have a message of their own.
-/

namespace TrafficKey.Yaml

/-- Why a text has no data. -/
inductive ReadFault where
  /-- the text is not YAML, or not of a kind that is read -/
  | invalid
  /-- an escape for a code that no text can hold -/
  | noCharacter (code : Nat)
  /-- no integer in its base -/
  | notInteger (base : Nat) (text : String)
  /-- an integer of too many digits -/
  | longInteger (digits : Nat)
  /-- no decimal fraction -/
  | notFraction (text : String)
  /-- a number of no characters -/
  | noNumber
  /-- no truth value -/
  | notTruth (word : String)
  /-- neither a date nor a moment -/
  | notDate
  /-- a mapping in place of the text of a date -/
  | mappedDate
  /-- a date or moment that is not in the calendar -/
  | badDate (message : String)
deriving DecidableEq, Repr

namespace ReadFault

/-- The largest code that is a machine integer. -/
def maxCode : Nat := 0x7FFFFFFF

/-- The fault of a text that is no integer in a base. The message shows no more than its first part. -/
def ofIntFault (base : Nat) (text : List Char) : Decimal.IntFault → ReadFault
  | .malformed => .notInteger base (String.ofList text)
  | .tooLong digits => .longInteger digits

/-- The wording of a fault. -/
def message : ReadFault → String
  | .invalid => "invalid YAML"
  | .noCharacter code =>
    if maxCode < code then "Python int too large to convert to C int"
    else "chr() arg not in range(0x110000)"
  | .notInteger base text =>
    "invalid literal for int() with base " ++ toString base ++ ": " ++
      String.ofList ((Text.quoted text).toList.take 200)
  | .longInteger digits =>
    "Exceeds the limit (4300 digits) for integer string conversion: value has " ++ toString digits ++
      " digits; use sys.set_int_max_str_digits() to increase the limit"
  | .notFraction text => "could not convert string to float: " ++ Text.quoted text
  | .noNumber => "string index out of range"
  | .notTruth word => Text.quoted word
  | .notDate => "'NoneType' object has no attribute 'groupdict'"
  | .mappedDate => "expected string or bytes-like object, got 'list'"
  | .badDate message => message

end ReadFault

/-- Something that can only fail because the text is not YAML. -/
def orInvalid {α : Type} : Option α → Except ReadFault α
  | some a => .ok a
  | none => .error .invalid

end TrafficKey.Yaml
