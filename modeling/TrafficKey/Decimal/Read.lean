import TrafficKey.Text.Blank
import TrafficKey.Text.Digit

/-!
# Reading numbers

The value of a run of digits and of a decimal fraction, and the integers and fractions as people write them on
a command line: with blanks around them, a sign, and underscores between digits. The digits may be those of
any script.
-/

namespace TrafficKey.Decimal

/-- The number of a digit string. -/
def ofDigits (digits : List Char) : Nat :=
  digits.foldl (fun n d => 10 * n + (d.toNat - '0'.toNat)) 0

/-- The double nearest to a decimal number with perhaps a point and perhaps an exponent. What lies far out of
the range of doubles is decided by the magnitude alone. -/
def ofFraction (cs : List Char) : Float :=
  let whole := cs.takeWhile Char.isDigit
  let rest := cs.dropWhile Char.isDigit
  let (places, rest) := match rest with
    | '.' :: rest => (rest.takeWhile Char.isDigit, rest.dropWhile Char.isDigit)
    | _ => ([], rest)
  let exponent : Int := match rest with
    | _ :: '-' :: digits => -(ofDigits digits : Int)
    | _ :: '+' :: digits => ofDigits digits
    | _ :: digits => ofDigits digits
    | [] => 0
  let digits := (whole ++ places).dropWhile (· == '0')
  let scale := exponent - places.length
  -- the value lies between 10 ^ (magnitude - 1) and 10 ^ magnitude
  let magnitude := scale + digits.length
  if digits.isEmpty || magnitude < -400 then 0.0
  else if 400 < magnitude then 1.0 / 0.0
  else Float.ofScientific (ofDigits digits) (scale < 0) scale.natAbs

/-- How many decimal digits an integer can have in a text. -/
def maxDigits : Nat := 4300

/-- The blanks that may stand around a number: all but the four separators of ASCII. -/
def isPadding (c : Char) : Bool :=
  Text.isBlank c && !(28 ≤ c.toNat && c.toNat ≤ 31)

/-- A text without the blanks around it, its digits as ASCII digits. -/
def unpadded (cs : List Char) : List Char :=
  ((cs.dropWhile isPadding).reverse.dropWhile isPadding).reverse.map Text.asciiDigit

/-- The value of a digit or letter as a digit of a large base. -/
def digitValue? (c : Char) : Option Nat :=
  if c.isDigit then some (c.toNat - '0'.toNat)
  else if c.isLower then some (c.toNat - 'a'.toNat + 10)
  else if c.isUpper then some (c.toNat - 'A'.toNat + 10)
  else none

/-- Whether a character is a digit of a base. -/
def isDigitIn (base : Nat) (c : Char) : Bool :=
  (digitValue? c).any (· < base)

/-- A text without the underscores between its digits, if every underscore stands between two digits. -/
def dropUnderscores (isDigit : Char → Bool) : List Char → Option (List Char)
  | [] => some []
  | c :: '_' :: d :: cs =>
    if isDigit c && isDigit d then (dropUnderscores isDigit (d :: cs)).map (c :: ·) else none
  | c :: cs => if c == '_' then none else (dropUnderscores isDigit cs).map (c :: ·)

/-- The sign of a text, true for a minus, and what follows it. -/
def cutSign : List Char → Bool × List Char
  | '-' :: cs => (true, cs)
  | '+' :: cs => (false, cs)
  | cs => (false, cs)

/-- The mark that may stand before the digits of a base. -/
def baseMark? (base : Nat) : Option Char :=
  if base = 2 then some 'b' else if base = 8 then some 'o' else if base = 16 then some 'x' else none

/-- What follows the mark of a base, or the whole text if there is no mark. -/
def dropMark (base : Nat) (cs : List Char) : List Char :=
  match cs with
  | '0' :: mark :: '_' :: rest => if baseMark? base = some mark.toLower then rest else cs
  | '0' :: mark :: rest => if baseMark? base = some mark.toLower then rest else cs
  | _ => cs

/-- Why a text is no integer. -/
inductive IntFault where
  | malformed
  /-- so many digits are too many -/
  | tooLong (digits : Nat)
deriving DecidableEq, Repr

/-- The integer that a text stands for in a base. The number of digits is limited unless the base is a power
of two. -/
def readIntIn (base : Nat) (cs : List Char) : Except IntFault Int :=
  let (negative, cs) := cutSign (unpadded cs)
  let cs := dropMark base cs
  let run := cs.takeWhile fun c => isDigitIn base c || c == '_'
  match dropUnderscores (isDigitIn base) run with
  | none => .error .malformed
  | some digits =>
    if (baseMark? base).isNone && maxDigits < digits.length then .error (.tooLong digits.length)
    else if digits.isEmpty || run.length < cs.length then .error .malformed
    else
      let n : Int := digits.foldl (fun n c => base * n + (digitValue? c).getD 0) 0
      .ok (if negative then -n else n)

/-- The integer that a text stands for. -/
def readInt? (s : String) : Option Int :=
  (readIntIn 10 s.toList).toOption

/-- Whether a text is an exponent: nothing, or a mark, perhaps a sign, and digits. -/
def isExponent : List Char → Bool
  | [] => true
  | mark :: cs =>
    let digits := (cutSign cs).2
    (mark == 'e' || mark == 'E') && !digits.isEmpty && digits.all Char.isDigit

/-- Whether a text is a decimal fraction without a sign. -/
def isFraction (cs : List Char) : Bool :=
  let whole := cs.takeWhile Char.isDigit
  match cs.dropWhile Char.isDigit with
  | '.' :: rest =>
    (!whole.isEmpty || (rest.head?.any Char.isDigit)) && isExponent (rest.dropWhile Char.isDigit)
  | rest => !whole.isEmpty && isExponent rest

/-- The number that a text stands for: a decimal fraction, or a word for what no fraction is. -/
def readFloat? (s : String) : Option Float := do
  let (negative, cs) := cutSign (unpadded s.toList)
  let size ←
    match String.ofList (cs.map Char.toLower) with
    | "inf" | "infinity" => some (1.0 / 0.0)
    | "nan" => some (0.0 / 0.0)
    | _ => do
      let cs ← dropUnderscores Char.isDigit cs
      if isFraction cs then some (ofFraction cs) else none
  return if negative then -size else size

end TrafficKey.Decimal
