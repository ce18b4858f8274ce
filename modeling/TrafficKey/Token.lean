import TrafficKey.Text.Blank
import TrafficKey.Text.Quoted
import TrafficKey.Diagnostic

/-!
# Tokens of a line

A line is cut into identifiers and the four punctuation characters. The blanks around the line are
skipped and no blank is allowed inside it. Offsets count characters from the start of the untrimmed
line.
-/

namespace TrafficKey

/-- What a token is. -/
inductive TokenKind where
  | identifier
  | colon
  | comma
  | lbracket
  | rbracket
  | eof
deriving DecidableEq, Repr, Inhabited

/-- The name of a token kind in token listings. -/
def TokenKind.label : TokenKind → String
  | .identifier => "IDENTIFIER"
  | .colon => "COLON"
  | .comma => "COMMA"
  | .lbracket => "LBRACKET"
  | .rbracket => "RBRACKET"
  | .eof => "EOF"

/-- The name of a token kind as a terminal of the grammar. -/
def TokenKind.terminal : TokenKind → String
  | .identifier => "NAME"
  | .colon => "COLON"
  | .comma => "COMMA"
  | .lbracket => "LSQB"
  | .rbracket => "RSQB"
  | .eof => "$END"

/-- All token kinds. -/
def TokenKind.all : List TokenKind :=
  [.identifier, .colon, .comma, .lbracket, .rbracket, .eof]

/-- The punctuation characters. -/
def TokenKind.ofChar? (c : Char) : Option TokenKind :=
  if c = ':' then some .colon
  else if c = ',' then some .comma
  else if c = '[' then some .lbracket
  else if c = ']' then some .rbracket
  else none

/-- A token with its text and its offset. A token that was not cut from a line may stand anywhere, so an
offset is an integer. -/
structure Token where
  kind : TokenKind
  value : String
  offset : Int
deriving DecidableEq, Repr, Inhabited

namespace Token

/-- The token that stands for the end of the input. -/
def stop (offset : Int) : Token :=
  ⟨.eof, "", offset⟩

/-- A token as listings show it. -/
def listing (t : Token) : String :=
  "Token(" ++ t.kind.label ++ ", " ++ Text.quoted t.value ++ ", " ++ toString t.offset ++ ")"

end Token

/-- The characters of identifiers: ASCII letters, digits and the underscore. -/
def isNameChar (c : Char) : Bool :=
  c.isAlphanum || c == '_'

/-- Whether a text is an identifier: a non-empty run of identifier characters. -/
def isName (s : String) : Bool :=
  !s.toList.isEmpty && s.toList.all isNameChar

/-- A character that starts no token, and where it stands. -/
structure Unmatched where
  offset : Nat
  char : Char
deriving DecidableEq, Repr

/-- The diagnostic of a character that starts no token. -/
def Unmatched.diagnostic (u : Unmatched) : Diagnostic :=
  .malformed u.offset .token (some (String.singleton u.char))

/-- The tokens of the characters `cs`, the first of which stands at `offset`. The first character that
starts no token is an error. -/
def scan (offset : Nat) (cs : List Char) : Except Unmatched (List Token) :=
  match cs with
  | [] => .ok []
  | c :: rest =>
    match TokenKind.ofChar? c with
    | some kind => do
      let tokens ← scan (offset + 1) rest
      return ⟨kind, String.singleton c, offset⟩ :: tokens
    | none =>
      if isNameChar c then do
        let run := c :: rest.takeWhile isNameChar
        let tokens ← scan (offset + run.length) (rest.dropWhile isNameChar)
        return ⟨.identifier, String.ofList run, offset⟩ :: tokens
      else .error ⟨offset, c⟩
termination_by cs.length
decreasing_by
  · simp
  · have := (List.dropWhile_sublist isNameChar (l := rest)).length_le
    simp only [List.length_cons]
    omega

/-- The tokens of a line, without the end of input. -/
def lineTokens (line : String) : Except Diagnostic (List Token) :=
  (scan (Text.indent line.toList) (Text.trim line.toList)).mapError Unmatched.diagnostic

/-- Where a line ends: after its last non-blank character, or after all its blanks. -/
def lineEnd (line : String) : Nat :=
  Text.indent line.toList + (Text.trim line.toList).length

/-- The tokens of a line, ended by the end of input. -/
def tokenize (line : String) : Except Diagnostic (List Token) := do
  let tokens ← lineTokens line
  return tokens ++ [Token.stop (lineEnd line)]

end TrafficKey
