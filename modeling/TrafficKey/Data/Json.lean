import TrafficKey.Data.Basic

/-!
# JSON text

Data as JSON, in ASCII characters only: every other character is escaped, those beyond the basic plane
as two units. The text is either compact or laid out over lines, with two more spaces for each level.
-/

namespace TrafficKey.Json

/-- An escaped code unit. -/
def unit (n : Nat) : List Char :=
  '\\' :: 'u' :: Text.hexDigits 4 n

/-- One character inside a JSON string. -/
def escapeChar (c : Char) : List Char :=
  let n := c.toNat
  if c == '"' then ['\\', '"']
  else if c == '\\' then ['\\', '\\']
  else if c == '\n' then ['\\', 'n']
  else if c == '\r' then ['\\', 'r']
  else if c == '\t' then ['\\', 't']
  else if n == 8 then ['\\', 'b']
  else if n == 12 then ['\\', 'f']
  else if 0x20 ≤ n && n < 0x7F then [c]
  else if n < 0x10000 then unit n
  else
    let m := n - 0x10000
    unit (0xD800 + m / 0x400) ++ unit (0xDC00 + m % 0x400)

/-- A JSON string. -/
def string (s : String) : String :=
  String.ofList ('"' :: s.toList.flatMap escapeChar ++ ['"'])

/-- A value that is neither a list nor a mapping. -/
def scalar : Data → String
  | .null => "null"
  | .bool b => if b then "true" else "false"
  | .int n => toString n
  | .float x =>
    match Decimal.Reading.ofFloat x with
    | .undefined => "NaN"
    | .infinite negative => if negative then "-Infinity" else "Infinity"
    | .finite _ => Decimal.shortestText x
  | d => string d.plainText

/-- The layout of a JSON text: nothing between the parts, or a new line for each item. -/
inductive Layout where
  | compact
  | lines
deriving DecidableEq

/-- What comes before an item at nesting level `level`. -/
def Layout.newline (l : Layout) (level : Nat) : String :=
  match l with
  | .compact => ""
  | .lines => "\n" ++ String.ofList (List.replicate (2 * level) ' ')

/-- What stands between a key and its value. -/
def Layout.colon : Layout → String
  | .compact => ":"
  | .lines => ": "

/-- A mapping's key as a JSON string. -/
def key : Data → String
  | .str s => string s
  | d => string (scalar d)

mutual

/-- A value at nesting level `level`. -/
def write (l : Layout) (level : Nat) : Data → String
  | .list [] => "[]"
  | .list (item :: items) =>
    "[" ++ l.newline (level + 1) ++ write l (level + 1) item ++ writeItems l (level + 1) items ++
      l.newline level ++ "]"
  | .map [] => "\x7b\x7d"
  | .map ((k, v) :: entries) =>
    "\x7b" ++ l.newline (level + 1) ++ key k ++ l.colon ++ write l (level + 1) v ++
      writeEntries l (level + 1) entries ++ l.newline level ++ "\x7d"
  | d => scalar d

/-- The items of a list after the first. -/
def writeItems (l : Layout) (level : Nat) : List Data → String
  | [] => ""
  | item :: items => "," ++ l.newline level ++ write l level item ++ writeItems l level items

/-- The entries of a mapping after the first. -/
def writeEntries (l : Layout) (level : Nat) : List (Data × Data) → String
  | [] => ""
  | (k, v) :: entries =>
    "," ++ l.newline level ++ key k ++ l.colon ++ write l level v ++ writeEntries l level entries

end

/-- Compact JSON text. -/
def compact (d : Data) : String :=
  write .compact 0 d

/-- JSON text over lines. -/
def pretty (d : Data) : String :=
  write .lines 0 d

end TrafficKey.Json
