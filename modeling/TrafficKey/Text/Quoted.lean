import TrafficKey.Text.Printable

/-!
# Quoted text

How a text is quoted inside a message: in single quotes, unless it holds a single quote and no double
quote; a backslash, the quote itself, line ends, tabs and all characters that are not printable are
escaped.
-/

namespace TrafficKey.Text

/-- The hexadecimal digits of `n`, lower case, filled up with zeros to `width` digits. -/
def hexDigits (width n : Nat) : List Char :=
  let digits := Nat.toDigits 16 n
  List.replicate (width - digits.length) '0' ++ digits

/-- The escaped form of one character inside the given quote. -/
def escapeChar (quote c : Char) : List Char :=
  if c == quote || c == '\\' then ['\\', c]
  else if c == '\n' then ['\\', 'n']
  else if c == '\r' then ['\\', 'r']
  else if c == '\t' then ['\\', 't']
  else if isPrintable c then [c]
  else
    let n := c.toNat
    if n < 0x100 then '\\' :: 'x' :: hexDigits 2 n
    else if n < 0x10000 then '\\' :: 'u' :: hexDigits 4 n
    else '\\' :: 'U' :: hexDigits 8 n

/-- The quote used around a text. -/
def quoteOf (cs : List Char) : Char :=
  if cs.contains '\'' && !cs.contains '"' then '"' else '\''

/-- The text in quotes, escaped. -/
def quoted (s : String) : String :=
  let cs := s.toList
  let quote := quoteOf cs
  String.ofList (quote :: cs.flatMap (escapeChar quote) ++ [quote])

/-- A text that is given by its codes, in quotes. A code that no character has is escaped. -/
def quotedCodes (codes : List Nat) : String :=
  let quote := quoteOf (codes.map Char.ofNat)
  let escape (n : Nat) : List Char :=
    if n.isValidChar then escapeChar quote (Char.ofNat n) else '\\' :: 'u' :: hexDigits 4 n
  String.ofList (quote :: codes.flatMap escape ++ [quote])

/-- Bytes in quotes. Those that are no printable ASCII characters are escaped. -/
def quotedBytes (bytes : List UInt8) : String :=
  let cs := bytes.map fun b => Char.ofNat b.toNat
  let quote := quoteOf cs
  let escape (c : Char) : List Char :=
    if 0x7F ≤ c.toNat then '\\' :: 'x' :: hexDigits 2 c.toNat else escapeChar quote c
  String.ofList ('b' :: quote :: cs.flatMap escape ++ [quote])

end TrafficKey.Text
