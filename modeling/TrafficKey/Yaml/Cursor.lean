import TrafficKey.Yaml.Writer

/-!
# A place in a YAML text

A cursor is what is left of a text, with its line and column. The end of the text reads as the NUL
character, which no text holds.
-/

namespace TrafficKey.Yaml

/-- A place in a text. -/
structure Cursor where
  rest : List Char
  index : Nat := 0
  line : Nat := 0
  column : Nat := 0
deriving Repr

namespace Cursor

/-- The character that stands for the end of the text. -/
def ending : Char := '\x00'

/-- The character `n` places on. -/
def peek (c : Cursor) (n : Nat) : Char :=
  c.rest.getD n ending

/-- The character at the cursor. -/
def head (c : Cursor) : Char :=
  c.rest.headD ending

/-- The cursor after one character. A byte-order mark takes no column. -/
def next (c : Cursor) : Cursor :=
  match c.rest with
  | [] => c
  | ch :: rest =>
    if isBreak ch then ⟨rest, c.index + 1, c.line + 1, 0⟩
    else ⟨rest, c.index + 1, c.line, if ch == '\uFEFF' then c.column else c.column + 1⟩

/-- The cursor after `n` characters. -/
def skip : Nat → Cursor → Cursor
  | 0, c => c
  | n + 1, c => skip n c.next

/-- The characters from the cursor on that are in a class. -/
def span (c : Cursor) (p : Char → Bool) : List Char :=
  c.rest.takeWhile p

/-- The cursor after the characters of a class. -/
def skipWhile (c : Cursor) (p : Char → Bool) : Cursor :=
  c.skip (c.span p).length

/-- The cursor after at most the spaces up to a column. -/
def skipSpacesTo (c : Cursor) (column : Nat) : Cursor :=
  c.skip ((c.rest.take (column - c.column)).takeWhile (· == ' ')).length

/-- Whether a document marker, `---` or `...`, stands at the cursor. -/
def atMarker (c : Cursor) : Bool :=
  let three := c.rest.take 3
  (three == ['-', '-', '-'] || three == ['.', '.', '.']) && isGap (c.peek 3)

/-- What a line break stands for in a scalar: the separators of Unicode stand for themselves, all
others for a new line. -/
def breakText (ch : Char) : Char :=
  if ch == '\u2028' || ch == '\u2029' then ch else '\n'

/-- The line break at the cursor, if there is one. -/
def break? (c : Cursor) : Option (Char × Cursor) :=
  if isBreak c.head then some (breakText c.head, c.next) else none

/-- The cursor after a line break, if there is one. -/
def skipBreak (c : Cursor) : Cursor :=
  if isBreak c.head then c.next else c

/-- Whether the cursor is at a line break or at the end. -/
def atLineEnd (c : Cursor) : Bool :=
  isBreak c.head || c.rest.isEmpty

/-- Skips what may follow on a line that holds nothing more: spaces and a comment. Anything else is an
error. -/
def endLine (c : Cursor) : Option Cursor :=
  let c := c.skipWhile (· == ' ')
  let c := if c.head == '#' then c.skipWhile (!isBreak ·) else c
  if c.atLineEnd then some c.skipBreak else none

end Cursor

end TrafficKey.Yaml
