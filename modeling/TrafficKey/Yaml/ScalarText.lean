import TrafficKey.Yaml.Cursor

/-!
# The text of scalars

How scalars of the different styles are read: plain, in single or double quotes, and as indented
blocks. A function gives the text of a scalar and the place after it, or says what is wrong. A scalar in double
quotes is given by its codes, since an escape can stand for half of a surrogate pair, which is no character.
-/

namespace TrafficKey.Yaml

/-- What a fold between two parts of a scalar becomes: one new line turns into a space, and of more only
those after the first are kept. -/
def foldText (first : Char) (more : List Char) : List Char :=
  if first != '\n' then first :: more
  else if more.isEmpty then [' ']
  else more

/-! ## Plain scalars -/

/-- The empty lines after a line break in a plain scalar; `none` means that a document marker ends the
scalar. -/
def plainBreaks : Nat → Cursor → Option (List Char) × Cursor
  | 0, c => (some [], c)
  | fuel + 1, c =>
    if c.atMarker && c.column == 0 then (none, c)
    else
      let c := c.skipWhile (· == ' ')
      match c.break? with
      | some (b, c) =>
        let (more, c) := plainBreaks fuel c
        (more.map (b :: ·), c)
      | none => (some [], c)

/-- The spaces or the fold after a part of a plain scalar. The last result says whether a line break was
read. -/
def plainGap (c : Cursor) : Option (List Char) × Cursor × Bool :=
  let spaces := c.span (· == ' ')
  let c := c.skip spaces.length
  match c.break? with
  | some (b, c) =>
    let (more, c) := plainBreaks (c.rest.length + 1) c
    (more.map (foldText b), c, true)
  | none => (some spaces, c, false)

/-- How long the part of a plain scalar at the start of a text is. Inside brackets, punctuation ends it
too. -/
def plainLength (inFlow : Bool) : List Char → Nat
  | [] => 0
  | ch :: rest =>
    let next := rest.headD Cursor.ending
    let ends := isGap ch ||
      (ch == ':' && (isGap next || (inFlow && ",[]\x7b\x7d".toList.contains next))) ||
      (inFlow && ",?[]\x7b\x7d".toList.contains ch)
    if ends then 0 else plainLength inFlow rest + 1

/-- A plain scalar whose continuation lines start at column `indent` or later. The last result says
whether a line break was read after its last part. -/
def readPlain (inFlow : Bool) (indent : Int) : Nat → Cursor → List Char × Cursor × Bool
  | 0, c => ([], c, false)
  | fuel + 1, c =>
    let length := if c.head == '#' then 0 else plainLength inFlow c.rest
    if length = 0 then ([], c, false)
    else
      let part := c.rest.take length
      let c := c.skip length
      match plainGap c with
      | (none, c, broke) => (part, c, broke)
      | (some gap, c, broke) =>
        if gap.isEmpty || c.head == '#' || (!inFlow && (c.column : Int) < indent) then
          (part, c, broke)
        else
          let (more, c, brokeLater) := readPlain inFlow indent fuel c
          if more.isEmpty then (part, c, broke) else (part ++ gap ++ more, c, brokeLater)

/-! ## Quoted scalars -/

/-- What the character after a backslash stands for. -/
def unescape? (ch : Char) : Option Char :=
  match ch with
  | '0' => some '\x00' | 'a' => some '\x07' | 'b' => some '\x08' | 't' => some '\t'
  | '\t' => some '\t' | 'n' => some '\n' | 'v' => some '\x0B' | 'f' => some '\x0C'
  | 'r' => some '\r' | 'e' => some '\x1B' | ' ' => some ' ' | '"' => some '"'
  | '\\' => some '\\' | '/' => some '/' | 'N' => some '\u0085' | '_' => some '\u00A0'
  | 'L' => some '\u2028' | 'P' => some '\u2029' | _ => none

/-- How many hexadecimal digits follow an escape letter. -/
def escapeWidth? (ch : Char) : Option Nat :=
  match ch with
  | 'x' => some 2 | 'u' => some 4 | 'U' => some 8 | _ => none

/-- Hexadecimal digits. -/
def isHexDigit (c : Char) : Bool :=
  isDigit c || ('a' ≤ c && c ≤ 'f') || ('A' ≤ c && c ≤ 'F')

/-- The empty lines of a quoted scalar, with the blanks around them. A document marker in it is an
error. -/
def quotedBreaks : Nat → Cursor → Option (List Char × Cursor)
  | 0, _ => none
  | fuel + 1, c =>
    if c.atMarker then none
    else
      let c := c.skipWhile fun ch => ch == ' ' || ch == '\t'
      match c.break? with
      | some (b, c) => do
        let (more, c) ← quotedBreaks fuel c
        return (b :: more, c)
      | none => some ([], c)

/-- The code of an escape with hexadecimal digits. A text holds no code beyond the last plane. -/
def readCode (digits : List Char) (width : Nat) : Except ReadFault Nat :=
  if digits.length == width && digits.all isHexDigit then
    let code := numberIn 16 digits
    if code < 0x110000 then .ok code else .error (.noCharacter code)
  else .error .invalid

/-- The codes of some characters. -/
def codesOf (cs : List Char) : List Nat :=
  cs.map Char.toNat

/-- The codes of a quoted scalar after its opening quote, up to and including the closing one. -/
def readQuoted (double : Bool) : Nat → Cursor → Except ReadFault (List Nat × Cursor)
  | 0, _ => .error .invalid
  | fuel + 1, c =>
    let quote := if double then '"' else '\''
    let ch := c.head
    if c.rest.isEmpty then .error .invalid
    else if ch == quote then
      -- a doubled quote stands for one
      if !double && c.peek 1 == '\'' then do
        let (more, c) ← readQuoted double fuel (c.skip 2)
        return ('\''.toNat :: more, c)
      else .ok ([], c.next)
    else if double && ch == '\\' then
      let c := c.next
      match unescape? c.head, escapeWidth? c.head with
      | some e, _ => do
        let (more, c) ← if c.rest.isEmpty then .error .invalid else readQuoted double fuel c.next
        return (e.toNat :: more, c)
      | none, some width => do
        let code ← readCode (c.next.rest.take width) width
        let (more, c) ← readQuoted double fuel (c.skip (width + 1))
        return (code :: more, c)
      | none, none =>
        match c.break? with
        -- an escaped line break joins two lines without a blank
        | some (_, c) => do
          let (breaks, c) ← orInvalid (quotedBreaks (c.rest.length + 1) c)
          let (more, c) ← readQuoted double fuel c
          return (codesOf breaks ++ more, c)
        | none => .error .invalid
    else if ch == ' ' || ch == '\t' || isBreak ch then
      let blanks := c.span fun ch => ch == ' ' || ch == '\t'
      let c := c.skip blanks.length
      match c.break? with
      | some (b, c) => do
        let (breaks, c) ← orInvalid (quotedBreaks (c.rest.length + 1) c)
        let (more, c) ← readQuoted double fuel c
        return (codesOf (foldText b breaks) ++ more, c)
      | none => do
        let (more, c) ← readQuoted double fuel c
        return (codesOf blanks ++ more, c)
    else do
      let (more, c) ← readQuoted double fuel c.next
      return (ch.toNat :: more, c)

/-! ## Block scalars -/

/-- What happens to the line breaks at the end of a block scalar. -/
inductive Chomping where
  /-- none is kept -/
  | strip
  /-- the first is kept -/
  | clip
  /-- all are kept -/
  | keep
deriving DecidableEq, Repr

/-- The chomping of an indicator. -/
def chomping? (ch : Char) : Option Chomping :=
  if ch == '+' then some .keep else if ch == '-' then some .strip else none

/-- The indentation of an indicator, which is not zero. -/
def increment? (ch : Char) : Option Nat :=
  if '1' ≤ ch && ch ≤ '9' then some (ch.toNat - '0'.toNat) else none

/-- The header of a block scalar after its first indicator: chomping and indentation in any order, and
nothing else on the line. -/
def blockHeader (c : Cursor) : Option (Chomping × Option Nat × Cursor) := do
  let (chomping, increment, c) :=
    match chomping? c.head, increment? c.head with
    | some chomping, _ =>
      match increment? (c.peek 1) with
      | some n => (chomping, some n, c.skip 2)
      | none => (chomping, none, c.next)
    | none, some n =>
      match chomping? (c.peek 1) with
      | some chomping => (chomping, some n, c.skip 2)
      | none => (.clip, some n, c.next)
    | none, none => (.clip, none, c)
  if c.head == ' ' || c.atLineEnd then
    let c ← c.endLine
    return (chomping, increment, c)
  else none

/-- The empty lines before a line of a block scalar that is indented to `indent`. -/
def blockBreaks (indent : Nat) : Nat → Cursor → List Char × Cursor
  | 0, c => ([], c)
  | fuel + 1, c =>
    let c := c.skipSpacesTo indent
    match c.break? with
    | some (b, c) =>
      let (more, c) := blockBreaks indent fuel c
      (b :: more, c)
    | none => ([], c)

/-- The empty lines at the start of a block scalar, and the deepest indentation seen. -/
def blockIndentation : Nat → Nat → Cursor → List Char × Nat × Cursor
  | 0, deepest, c => ([], deepest, c)
  | fuel + 1, deepest, c =>
    let c := c.skipWhile (· == ' ')
    let deepest := max deepest c.column
    match c.break? with
    | some (b, c) =>
      let (more, deepest, c) := blockIndentation fuel deepest c
      (b :: more, deepest, c)
    | none => ([], deepest, c)

/-- The lines of a block scalar. `breaks` are the empty lines before the current one; the results are the
text without the last line break, that break, the empty lines after it, and the place after them. -/
def blockLines (folded : Bool) (indent : Nat) :
    Nat → List Char → List Char → Cursor → List Char × List Char × List Char × Cursor
  | 0, last, breaks, c => ([], last, breaks, c)
  | fuel + 1, last, breaks, c =>
    if c.column == indent && !c.rest.isEmpty then
      let isBlank (ch : Char) : Bool := ch == ' ' || ch == '\t'
      let startsText := !isBlank c.head
      let line := c.span (!isBreak ·)
      let c := c.skip line.length
      let (ending, c) := match c.break? with
        | some (b, c) => ([b], c)
        | none => ([], c)
      let (after, c) := blockBreaks indent (c.rest.length + 1) c
      if c.column == indent && !c.rest.isEmpty then
        let between :=
          if folded && ending == ['\n'] && startsText && !isBlank c.head then
            if after.isEmpty then [' '] else []
          else ending
        let (more, last, rest, c) := blockLines folded indent fuel ending after c
        (breaks ++ line ++ between ++ more, last, rest, c)
      else (breaks ++ line, ending, after, c)
    else ([], last, breaks, c)

/-- A block scalar after its first indicator, inside a block at column `indent`. -/
def readBlock (folded : Bool) (indent : Int) (c : Cursor) : Option (List Char × Cursor) := do
  let (chomping, increment, c) ← blockHeader c
  let least := (max (indent + 1) 1).toNat
  let fuel := c.rest.length + 1
  let (column, breaks, c) :=
    match increment with
    | some n =>
      let column := least + n - 1
      let (breaks, c) := blockBreaks column fuel c
      (column, breaks, c)
    | none =>
      let (breaks, deepest, c) := blockIndentation fuel 0 c
      (max least deepest, breaks, c)
  let (text, last, rest, c) := blockLines folded column fuel [] breaks c
  let tail := match chomping with
    | .strip => []
    | .clip => last
    | .keep => last ++ rest
  return (text ++ tail, c)

end TrafficKey.Yaml
