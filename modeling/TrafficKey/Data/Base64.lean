/-!
# Base64

Bytes written as letters, digits, plus signs and slashes, four for every three bytes. Other characters are
passed over, and a fill of equals signs that completes a group ends the text.
-/

namespace TrafficKey.Base64

/-- The six bits of a character. -/
def sixBits? (c : Char) : Option Nat :=
  if c.isUpper then some (c.toNat - 'A'.toNat)
  else if c.isLower then some (c.toNat - 'a'.toNat + 26)
  else if c.isDigit then some (c.toNat - '0'.toNat + 52)
  else if c == '+' then some 62
  else if c == '/' then some 63
  else none

/-- The bytes of a text. `group` holds the six-bit values of an incomplete group, and `fill` counts the equals
signs since the last of them; a group must not stay incomplete. -/
def decodeFrom (group : List Nat) (fill : Nat) : List Char → Option (List UInt8)
  | [] => if group.isEmpty then some [] else none
  | c :: cs =>
    if c == '=' then
      if 2 ≤ group.length then
        if 4 ≤ group.length + fill + 1 then some [] else decodeFrom group (fill + 1) cs
      else decodeFrom group fill cs
    else
      match sixBits? c, group with
      | none, _ => decodeFrom group fill cs
      | some v, [] => decodeFrom [v] 0 cs
      | some v, [a] => (decodeFrom [a, v] 0 cs).map (UInt8.ofNat (a * 4 + v / 16) :: ·)
      | some v, [a, b] => (decodeFrom [a, b, v] 0 cs).map (UInt8.ofNat (b % 16 * 16 + v / 4) :: ·)
      | some v, _ :: _ :: d :: _ => (decodeFrom [] 0 cs).map (UInt8.ofNat (d % 4 * 64 + v) :: ·)

/-- The bytes of a text. -/
def decode (text : String) : Option (List UInt8) :=
  decodeFrom [] 0 text.toList

end TrafficKey.Base64
