import TrafficKey.Yaml.Scalar

/-!
# Writing YAML

Data as block-style YAML: a mapping has an entry per line, a list an item per line after a dash, and a
list inside a mapping is not indented. A string is written plain if it would be read back as that
string, else in single quotes, and in double quotes if it holds characters that need escapes. Long
scalars are folded at spaces.
-/

namespace TrafficKey.Yaml

/-! ## The style of a string -/

/-- The line breaks of YAML. -/
def isBreak (c : Char) : Bool :=
  c == '\n' || c == '\u0085' || c == '\u2028' || c == '\u2029'

/-- What can stand after an indicator to make it one: a blank, a line break, or the end. -/
def isGap (c : Char) : Bool :=
  isBreak c || c == ' ' || c == '\t' || c == '\r' || c == '\x00'

/-- The characters that cannot start a plain scalar. -/
def startIndicators : List Char := "#,[]\x7b\x7d&*!|>'\"%@`".toList

/-- Whether a character of a plain scalar would be read as an indicator; `before` and `after` are its
neighbours. -/
def isIndicator (before : Option Char) (c : Char) (after : Option Char) : Bool :=
  let gapAfter := after.all isGap
  match before with
  | none =>
    startIndicators.contains c || ((c == '?' || c == ':' || c == '-') && gapAfter)
  | some b => (c == ':' && gapAfter) || (c == '#' && isGap b)

/-- Whether a text holds an indicator; `before` is the character before it. -/
def hasIndicator : Option Char → List Char → Bool
  | _, [] => false
  | before, c :: cs => isIndicator before c cs.head? || hasIndicator (some c) cs

/-- Whether a character needs an escape. -/
def isSpecial (c : Char) : Bool :=
  !(c == '\n' || (' ' ≤ c && c ≤ '~'))

/-- Whether a character of the first class is directly followed by one of the second. -/
def hasPair (p q : Char → Bool) : List Char → Bool
  | a :: b :: cs => (p a && q b) || hasPair p q (b :: cs)
  | _ => false

/-- How a string is written. -/
inductive Style where
  | plain
  | single
  | double
deriving DecidableEq, Repr

/-- The style of a string outside of brackets. -/
def styleOf (s : String) : Style :=
  let cs := s.toList
  let isSpace (c : Char) : Bool := c == ' '
  let edge (p : Char → Bool) : Bool := cs.head?.any p || cs.getLast?.any p
  let marker := cs.take 3 == ['-', '-', '-'] || cs.take 3 == ['.', '.', '.']
  let special := cs.any isSpecial || hasPair isSpace isBreak cs
  let plain := !edge isSpace && !edge isBreak && !hasPair isBreak isSpace cs && !special &&
    !cs.any isBreak && !marker && !hasIndicator none cs
  if plain && scalarType s == .str then .plain
  else if !hasPair isBreak isSpace cs && !special then .single
  else .double

/-! ## Layout -/

/-- The column after which a scalar is folded. -/
def bestWidth : Nat := 80

/-- A new line with `indent` spaces. -/
def newline (indent : Nat) : List Char :=
  '\n' :: List.replicate indent ' '

/-- Cuts a text into maximal runs of spaces, of line breaks and of other characters. -/
def runs : List Char → List (List Char)
  | [] => []
  | c :: cs =>
    match runs cs with
    | (d :: run) :: rest =>
      if (c == ' ') == (d == ' ') && isBreak c == isBreak d then (c :: d :: run) :: rest
      else [c] :: (d :: run) :: rest
    | rest => [c] :: rest

/-- A plain scalar from `column` on: a single space past the best width becomes a new line. -/
def writePlain (indent : Nat) : Nat → List (List Char) → List Char
  | _, [] => []
  | column, run :: rest =>
    if run == [' '] && bestWidth < column then newline indent ++ writePlain indent indent rest
    else run ++ writePlain indent (column + run.length) rest

/-- The line breaks of a quoted scalar; the first new line is doubled. -/
def writeBreaks (run : List Char) : List Char :=
  (if run.head? == some '\n' then ['\n'] else []) ++ run

/-- A scalar in single quotes, each of which is doubled inside; `first` says that nothing was written
yet. -/
def writeSingle (indent : Nat) : Bool → Nat → List (List Char) → List Char
  | _, _, [] => []
  | first, column, run :: rest =>
    if run.head?.any isBreak then
      writeBreaks run ++ List.replicate indent ' ' ++ writeSingle indent false indent rest
    else if run == [' '] && bestWidth < column && !first && !rest.isEmpty then
      newline indent ++ writeSingle indent false indent rest
    else
      let doubled := run.flatMap fun c => if c == '\'' then ['\'', '\''] else [c]
      doubled ++ writeSingle indent false (column + doubled.length) rest

/-- Hexadecimal digits in upper case. -/
def upperHex (width n : Nat) : List Char :=
  (Text.hexDigits width n).map Char.toUpper

/-- The escape of a character inside double quotes, if it needs one. -/
def escape? (c : Char) : Option (List Char) :=
  let n := c.toNat
  let short : Option Char :=
    match n with
    | 0 => some '0' | 7 => some 'a' | 8 => some 'b' | 9 => some 't' | 10 => some 'n'
    | 11 => some 'v' | 12 => some 'f' | 13 => some 'r' | 0x1B => some 'e' | 0x22 => some '"'
    | 0x5C => some '\\' | 0x85 => some 'N' | 0xA0 => some '_' | 0x2028 => some 'L'
    | 0x2029 => some 'P' | _ => none
  match short with
  | some e => some ['\\', e]
  | none =>
    if ' ' ≤ c && c ≤ '~' then none
    else if n ≤ 0xFF then some ('\\' :: 'x' :: upperHex 2 n)
    else if n ≤ 0xFFFF then some ('\\' :: 'u' :: upperHex 4 n)
    else some ('\\' :: 'U' :: upperHex 8 n)

/-- A scalar in double quotes from `column` on. `pending` holds, last first, plain characters not yet
counted in the column. A line is folded at a space, or next to an escape, with a backslash at its end; an
escape may pass the best width by one. Neither the first nor the last character folds a line. -/
def writeDouble (indent : Nat) : Bool → Nat → List Char → List Char → List Char
  | _, _, pending, [] => pending.reverse
  | first, column, pending, c :: cs =>
    let inside := !first && !cs.isEmpty
    match escape? c with
    | some e =>
      let column := column + pending.length + e.length
      if inside && bestWidth + 1 < column then
        pending.reverse ++ e ++ '\\' :: newline indent ++
          (if cs.head? == some ' ' then '\\' :: writeDouble indent false (indent + 1) [] cs
           else writeDouble indent false indent [] cs)
      else pending.reverse ++ e ++ writeDouble indent false column [] cs
    | none =>
      if inside && (c == ' ' || pending.isEmpty) && bestWidth < column + pending.length then
        -- a space at the start of a line would be lost, so it is escaped
        pending.reverse ++ '\\' :: newline indent ++
          (if c == ' ' then '\\' :: writeDouble indent false (indent + 1) [c] cs
           else writeDouble indent false indent [c] cs)
      else writeDouble indent false column (c :: pending) cs

/-- A string at `column`, with continuation lines indented by `indent`. -/
def writeString (indent column : Nat) (s : String) : List Char :=
  let cs := s.toList
  match styleOf s with
  | .plain => writePlain indent column (runs cs)
  | .single => '\'' :: writeSingle indent true (column + 1) (runs cs) ++ ['\'']
  | .double => '"' :: writeDouble indent true (column + 1) [] cs ++ ['"']

/-- A scalar at `column`, with continuation lines indented by `indent`. -/
def writeScalar (indent column : Nat) : Data → List Char
  | .null => "null".toList
  | .bool b => (if b then "true" else "false").toList
  | .str s => writeString indent column s
  | .int n => (toString n).toList
  | d => d.plainText.toList

mutual

/-- A value after the `:` of an entry of a mapping at column `indent`; `column` is where the colon
ends. -/
def writeAfterKey (indent column : Nat) : Data → List Char
  | .list [] => " []".toList
  | .map [] => " \x7b\x7d".toList
  | .list items => writeItems indent items
  | .map entries => writeEntries (indent + 2) entries
  | d => ' ' :: writeScalar (indent + 2) (column + 1) d

/-- A value after the `-` of an item of a list at column `indent`. -/
def writeAfterDash (indent : Nat) : Data → List Char
  | .list [] => " []".toList
  | .map [] => " \x7b\x7d".toList
  | .list (item :: items) =>
    ' ' :: '-' :: writeAfterDash (indent + 2) item ++ writeItems (indent + 2) items
  | .map ((k, v) :: entries) =>
    let key := writeScalar (indent + 2) (indent + 2) k
    ' ' :: key ++ ':' :: writeAfterKey (indent + 2) (indent + 3 + key.length) v ++
      writeEntries (indent + 2) entries
  | d => ' ' :: writeScalar (indent + 2) (indent + 2) d

/-- Items, each on a new line. -/
def writeItems (indent : Nat) : List Data → List Char
  | [] => []
  | item :: items =>
    newline indent ++ '-' :: writeAfterDash indent item ++ writeItems indent items

/-- Entries, each on a new line. -/
def writeEntries (indent : Nat) : List (Data × Data) → List Char
  | [] => []
  | (k, v) :: entries =>
    let key := writeScalar (indent + 2) indent k
    newline indent ++ key ++ ':' :: writeAfterKey indent (indent + 1 + key.length) v ++
      writeEntries indent entries

end

/-- The YAML text of a value, without a line end. -/
def render (d : Data) : String :=
  match d with
  | .list [] => "[]"
  | .map [] => "\x7b\x7d"
  | .list items => String.ofList ((writeItems 0 items).drop 1)
  | .map entries => String.ofList ((writeEntries 0 entries).drop 1)
  | d => String.ofList (writeScalar 0 0 d)

end TrafficKey.Yaml
