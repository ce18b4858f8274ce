import TrafficKey.Yaml.ScalarText

/-!
# Tokens of a YAML text

A text is cut into tokens. Indentation becomes explicit: a block starts and ends with a token of its own.
A scalar that turns out to be the key of an entry gets its key token in front when the colon after it is
read, which is why the places of possible keys are kept.

A text that is not YAML still has tokens: those that can be read before what is wrong, and then a token for
the fault. A token that may yet turn out to be a key can only be read when that is decided.
-/

namespace TrafficKey.Yaml

/-- A token of a YAML text. -/
inductive Token where
  | streamEnd
  | yamlDirective (major : Nat)
  | tagDirective (handle expansion : String)
  | otherDirective
  | documentStart
  | documentEnd
  | blockSequenceStart
  | blockMappingStart
  | blockEnd
  | flowSequenceStart
  | flowSequenceEnd
  | flowMappingStart
  | flowMappingEnd
  | blockEntry
  | flowEntry
  | key
  | value
  | alias (name : String)
  | anchor (name : String)
  | tag (handle : Option String) (suffix : String)
  | scalar (text : String) (plain : Bool)
  /-- a quoted scalar with codes that are no characters -/
  | rawScalar (codes : List Nat)
  /-- what is wrong with the text from here on -/
  | fault (f : ReadFault)
deriving DecidableEq, Repr

/-- A place where the key of an entry may have started. -/
structure KeyPlace where
  level : Nat
  position : Nat
  required : Bool
  index : Nat
  line : Nat
  column : Nat
deriving Repr

/-- What is known while a text is cut into tokens. -/
structure Scan where
  cursor : Cursor
  /-- how many brackets are open -/
  level : Nat := 0
  /-- the column of the current block, or -1 outside of all blocks -/
  indent : Int := -1
  /-- the columns of the blocks around the current one -/
  outer : List Int := []
  /-- whether a key may start here -/
  keyAllowed : Bool := true
  /-- the places where a key may have started, at most one per bracket level -/
  places : List KeyPlace := []
  /-- the tokens so far -/
  tokens : List Token := []

namespace Scan

/-- Adds a token. -/
def emit (s : Scan) (t : Token) : Scan :=
  { s with tokens := s.tokens ++ [t] }

/-- Adds a token of `n` characters. -/
def take (s : Scan) (n : Nat) (t : Token) : Scan :=
  { s.emit t with cursor := s.cursor.skip n }

/-- Whether the place of a key is out of reach: on an earlier line, or too far back. -/
def isStale (s : Scan) (p : KeyPlace) : Bool :=
  p.line != s.cursor.line || 1024 < s.cursor.index - p.index

/-- Forgets the places of keys that are out of reach. A place where there must be a key cannot be
forgotten. -/
def forgetStale (s : Scan) : Option Scan :=
  if s.places.any fun p => s.isStale p && p.required then none
  else some { s with places := s.places.filter (!s.isStale ·) }

/-- Forgets the place of a key at the current bracket level. -/
def forgetKey (s : Scan) : Option Scan :=
  if s.places.any fun p => p.level == s.level && p.required then none
  else some { s with places := s.places.filter (·.level != s.level) }

/-- Remembers that a key may start here. -/
def rememberKey (s : Scan) : Option Scan :=
  if s.keyAllowed then do
    let required := s.level == 0 && s.indent == s.cursor.column
    let s ← s.forgetKey
    let place : KeyPlace :=
      ⟨s.level, s.tokens.length, required, s.cursor.index, s.cursor.line, s.cursor.column⟩
    return { s with places := place :: s.places }
  else some s

/-- Ends the blocks that are indented more than `column`. -/
def unwindTo (column : Int) : List Int → Scan → Scan
  | outer, s =>
    if s.level = 0 && column < s.indent then
      match outer with
      | [] => { s.emit .blockEnd with indent := -1, outer := [] }
      | i :: rest => unwindTo column rest { s.emit .blockEnd with indent := i, outer := rest }
    else s

/-- Ends the blocks that are indented more than `column`. -/
def unwind (s : Scan) (column : Int) : Scan :=
  unwindTo column s.outer s

/-- Starts a block at a column, if it is deeper than the current one. -/
def indentTo (s : Scan) (column : Nat) : Option Scan :=
  if s.indent < column then some { s with indent := column, outer := s.indent :: s.outer } else none

/-- Starts a block with its token at the end of the tokens, if the column is deep enough. -/
def openBlock (s : Scan) (t : Token) : Scan :=
  match s.indentTo s.cursor.column with
  | some s => s.emit t
  | none => s

/-- Skips spaces, comments and empty lines. -/
def skipBlank : Nat → Scan → Scan
  | 0, s => s
  | fuel + 1, s =>
    let c := s.cursor.skipWhile (· == ' ')
    let c := if c.head == '#' then c.skipWhile (!isBreak ·) else c
    match c.break? with
    | some (_, c) =>
      skipBlank fuel { s with cursor := c, keyAllowed := s.keyAllowed || s.level == 0 }
    | none => { s with cursor := c }

/-! ## Names and tags -/

/-- The characters of anchors and tag handles. -/
def isWordChar (c : Char) : Bool :=
  c.isAlphanum || c == '-' || c == '_'

/-- The characters of tags. -/
def isTagChar (c : Char) : Bool :=
  isWordChar c || ";/?:@&=+$,.!~*'()[]%".toList.contains c

/-- The name of an anchor or alias. -/
def anchorName (c : Cursor) : Option (String × Cursor) :=
  let name := c.span isWordChar
  let c := c.skip name.length
  if !name.isEmpty && (isGap c.head || "?:,]\x7d%@`".toList.contains c.head) then
    some (String.ofList name, c)
  else none

/-- The bytes that percent signs with two hexadecimal digits stand for, at the start of a text. -/
def escapedBytes : List Char → Option (List UInt8)
  | '%' :: a :: b :: cs =>
    if isHexDigit a && isHexDigit b then
      (escapedBytes cs).map (UInt8.ofNat (numberIn 16 [a, b]) :: ·)
    else none
  | '%' :: _ => none
  | _ => some []

/-- A tag with its escapes replaced by the characters they encode. -/
def unescapeTag : Nat → List Char → Option (List Char)
  | 0, _ => none
  | _ + 1, [] => some []
  | fuel + 1, '%' :: cs => do
    let bytes ← escapedBytes ('%' :: cs)
    let text ← String.fromUTF8? ⟨bytes.toArray⟩
    let more ← unescapeTag fuel (('%' :: cs).drop (3 * bytes.length))
    return text.toList ++ more
  | fuel + 1, c :: cs => (unescapeTag fuel cs).map (c :: ·)

/-- The rest of a tag. -/
def tagSuffix (c : Cursor) : Option (String × Cursor) := do
  let name := c.span isTagChar
  let text ← unescapeTag (name.length + 1) name
  if name.isEmpty then none else some (String.ofList text, c.skip name.length)

/-- A tag handle: `!`, or a word between two exclamation marks. -/
def tagHandle (c : Cursor) : Option (String × Cursor) :=
  if c.head != '!' then none
  else
    let word := c.next.span isWordChar
    let after := c.skip (word.length + 1)
    if after.head == '!' then some (String.ofList ('!' :: word ++ ['!']), after.next)
    else if c.peek 1 == ' ' then some ("!", c.next)
    else none

/-- Whether a tag can end here. -/
def endsTag (c : Cursor) : Bool :=
  c.head == ' ' || c.atLineEnd

/-- A tag at the cursor, which is at its exclamation mark. -/
def tagToken (c : Cursor) : Option (Token × Cursor) := do
  let (token, c) ←
    if c.peek 1 == '<' then do
      let (suffix, c) ← tagSuffix (c.skip 2)
      if c.head == '>' then some (Token.tag none suffix, c.next) else none
    else if isGap (c.peek 1) then some (Token.tag none "!", c.next)
    else
      let ahead := c.next.rest.takeWhile fun ch => ch != ' ' && !isBreak ch
      if ahead.contains '!' then do
        let (handle, c) ← tagHandle c
        let (suffix, c) ← tagSuffix c
        some (Token.tag (some handle) suffix, c)
      else do
        let (suffix, c) ← tagSuffix c.next
        some (Token.tag (some "!") suffix, c)
  if endsTag c then some (token, c) else none

/-- A directive at the cursor, which is at its percent sign. -/
def directiveToken (c : Cursor) : Option (Token × Cursor) := do
  let c := c.next
  let name := c.span isWordChar
  let c := c.skip name.length
  if name.isEmpty || !endsTag c then none
  else do
    let (token, c) ←
      if name == "YAML".toList then do
        let c := c.skipWhile (· == ' ')
        let major := c.span isDigit
        let c := c.skip major.length
        let minor := c.next.span isDigit
        let after := c.next.skip minor.length
        if major.isEmpty || c.head != '.' || minor.isEmpty || !endsTag after then none
        else some (Token.yamlDirective (Decimal.ofDigits major), after)
      else if name == "TAG".toList then do
        let (handle, c) ← tagHandle (c.skipWhile (· == ' '))
        if c.head != ' ' then none
        else do
          let (expansion, c) ← tagSuffix (c.skipWhile (· == ' '))
          if endsTag c then some (Token.tagDirective handle expansion, c) else none
      else some (Token.otherDirective, c.skipWhile (!isBreak ·))
    let c ← c.endLine
    return (token, c)

/-! ## Fetching -/

/-- The end of all blocks, before a document marker, a directive or the end of the text. -/
def leaveBlocks (s : Scan) : Option Scan := do
  let s ← (s.unwind (-1)).forgetKey
  return { s with keyAllowed := false }

/-- A dash or question mark that starts an entry of a block. -/
def blockIndicator (s : Scan) (start mark : Token) : Option Scan :=
  if s.level = 0 then
    if s.keyAllowed then some { (s.openBlock start).take 1 mark with keyAllowed := true } else none
  else some (s.take 1 mark)

/-- A colon after a key or, if no key is in reach, on its own. -/
def valueIndicator (s : Scan) : Option Scan :=
  match s.places.find? (·.level == s.level) with
  | some place =>
    let s := { s with places := s.places.filter (·.level != s.level), keyAllowed := false }
    let started := if s.level = 0 then s.indentTo place.column else none
    let (s, front) := match started with
      | some s => (s, [Token.blockMappingStart, .key])
      | none => (s, [Token.key])
    -- the key was read before its colon: what marks it as a key goes in front of it
    let tokens := s.tokens.take place.position ++ front ++ s.tokens.drop place.position
    some ({ s with tokens }.take 1 .value)
  | none =>
    if s.level = 0 then
      if s.keyAllowed then do
        let s ← (s.openBlock .blockMappingStart).forgetKey
        return { s with keyAllowed := true }.take 1 .value
      else none
    else do
      let s ← s.forgetKey
      return { s with keyAllowed := false }.take 1 .value

/-- A scalar or another token that can be a key, read by `read`. -/
def keyLike (s : Scan) (read : Cursor → Except ReadFault (Token × Cursor)) : Except ReadFault Scan := do
  let s ← orInvalid s.rememberKey
  let (token, c) ← read s.cursor
  return { s.emit token with cursor := c, keyAllowed := false }

/-- Whether a plain scalar can start with `ch` before `next`. -/
def startsPlain (inFlow : Bool) (ch next : Char) : Bool :=
  !(isGap ch || "-?:,[]\x7b\x7d#&*!|>'\"%@`".toList.contains ch) ||
    (!isGap next && (ch == '-' || (!inFlow && (ch == '?' || ch == ':'))))

/-- The token of a quoted scalar. -/
def scalarOfCodes (codes : List Nat) : Token :=
  if codes.all Nat.isValidChar then .scalar (String.ofList (codes.map Char.ofNat)) false
  else .rawScalar codes

/-- A quoted scalar at the cursor. -/
def quotedToken (double : Bool) (c : Cursor) : Except ReadFault (Token × Cursor) := do
  let (codes, c) ← readQuoted double (c.rest.length + 1) c.next
  return (scalarOfCodes codes, c)

/-- A plain scalar. A line break read after it allows a key. -/
def plainToken (s : Scan) : Option Scan := do
  let s ← s.rememberKey
  let (text, c, broke) :=
    readPlain (s.level != 0) (s.indent + 1) (s.cursor.rest.length + 1) s.cursor
  return { s.emit (.scalar (String.ofList text) true) with cursor := c, keyAllowed := broke }

/-- A block scalar. -/
def blockToken (folded : Bool) (s : Scan) : Option Scan := do
  let s ← s.forgetKey
  let (text, c) ← readBlock folded s.indent s.cursor.next
  return { s.emit (.scalar (String.ofList text) false) with cursor := c, keyAllowed := true }

/-- An opening bracket. -/
def openBracket (s : Scan) (t : Token) : Option Scan := do
  let s ← s.rememberKey
  return { s.take 1 t with level := s.level + 1, keyAllowed := true }

/-- A closing bracket. -/
def closeBracket (s : Scan) (t : Token) : Option Scan := do
  let s ← s.forgetKey
  if s.level = 0 then none
  else return { s.take 1 t with level := s.level - 1, keyAllowed := false }

/-- Reads the next token if it cannot be a key, at a place where nothing can be skipped and the text has not
ended. The inner `none` says that it is of another kind. -/
def fetchMark (s : Scan) : Option (Option Scan) :=
  let c := s.cursor
  let ch := c.head
  let gapNext := isGap (c.peek 1)
  let inFlow := s.level != 0
  let marked := c.column == 0 && c.atMarker
  if ch == '%' && c.column == 0 then do
    let s ← s.leaveBlocks
    let (token, c) ← directiveToken s.cursor
    return some { s.emit token with cursor := c }
  else if marked && ch == '-' then (fun s => some (s.take 3 .documentStart)) <$> s.leaveBlocks
  else if marked && ch == '.' then (fun s => some (s.take 3 .documentEnd)) <$> s.leaveBlocks
  else if ch == '[' then some <$> s.openBracket .flowSequenceStart
  else if ch == '\x7b' then some <$> s.openBracket .flowMappingStart
  else if ch == ']' then some <$> s.closeBracket .flowSequenceEnd
  else if ch == '\x7d' then some <$> s.closeBracket .flowMappingEnd
  else if ch == ',' then do
    let s ← s.forgetKey
    return some ({ s with keyAllowed := true }.take 1 .flowEntry)
  else if ch == '-' && gapNext then do
    let s ← s.blockIndicator .blockSequenceStart .blockEntry
    let s ← s.forgetKey
    return some { s with keyAllowed := true }
  else if ch == '?' && (inFlow || gapNext) then do
    let s ← s.blockIndicator .blockMappingStart .key
    let s ← s.forgetKey
    return some { s with keyAllowed := s.level == 0 }
  else if ch == ':' && (inFlow || gapNext) then some <$> s.valueIndicator
  else if ch == '|' && !inFlow then some <$> s.blockToken false
  else if ch == '>' && !inFlow then some <$> s.blockToken true
  else some none

/-- Reads the next token, at a place where nothing can be skipped and the text has not ended. -/
def fetchToken (s : Scan) : Except ReadFault Scan := do
  match ← orInvalid s.fetchMark with
  | some s => return s
  | none =>
    let ch := s.cursor.head
    if ch == '*' then
      s.keyLike fun c => orInvalid ((fun (name, c) => (Token.alias name, c)) <$> anchorName c.next)
    else if ch == '&' then
      s.keyLike fun c => orInvalid ((fun (name, c) => (Token.anchor name, c)) <$> anchorName c.next)
    else if ch == '!' then s.keyLike fun c => orInvalid (tagToken c)
    else if ch == '\'' then s.keyLike (quotedToken false)
    else if ch == '"' then s.keyLike (quotedToken true)
    else if startsPlain (s.level != 0) ch (s.cursor.peek 1) then orInvalid s.plainToken
    else .error .invalid

/-- The tokens that can be read before the text is read any further: those before the first that may still
turn out to be a key. -/
def settled (s : Scan) : List Token :=
  let pending := s.places.filter (!s.isStale ·)
  s.tokens.take (pending.foldl (fun n p => min n p.position) s.tokens.length)

/-- Reads all tokens. -/
def fetchAll : Nat → Scan → List Token
  | 0, s => s.settled ++ [.fault .invalid]
  | fuel + 1, s =>
    let next : Except ReadFault (Scan × Bool) := do
      let s := s.skipBlank (s.cursor.rest.length + 1)
      let s ← orInvalid s.forgetStale
      -- blocks that are indented more than the next token end before it
      let s := s.unwind s.cursor.column
      if s.cursor.rest.isEmpty then
        let s ← orInvalid s.leaveBlocks
        return (s.emit .streamEnd, true)
      else return (← s.fetchToken, false)
    match next with
    | .error f => s.settled ++ [.fault f]
    | .ok (s, true) => s.tokens
    | .ok (s, false) => fetchAll fuel s

end Scan

/-- The tokens of a text, of which a byte-order mark at the start is no part. -/
def tokensOf (text : List Char) : List Token :=
  let cursor : Cursor := { rest := text }
  let cursor := if cursor.head == '\uFEFF' then cursor.next else cursor
  Scan.fetchAll (text.length + 2) { cursor }

end TrafficKey.Yaml
