import TrafficKey.Shape
import TrafficKey.Suggestion
import TrafficKey.Text.Quoted

/-!
# Diagnostics

Why a line is not a key definition, and how each reason is worded. A diagnostic is a cause with its
place; a report is what a reader sees of it: kind, offset, detail and message. The wording writes the
offset and, for a wrong number of arguments, the arity and the count. If one of these has too many digits
to be written, the diagnostic has no report, and its reader gets a failure of another kind.
-/

namespace TrafficKey

/-- What a malformed line should have had at the reported place. -/
inductive Expectation where
  /-- any token at all -/
  | token
  /-- the start of a key -/
  | keyOrFunction
  /-- a key after a comma that ends the line -/
  | keyAfterComma
  /-- a function name after an opening bracket -/
  | functionName
  /-- the colon after the name of a nested call -/
  | colonAfterName
  /-- an argument -/
  | argument
  /-- an argument after a colon that ends the line -/
  | argumentAfterColon
  /-- a bare argument, where a nested call is not allowed -/
  | literalArgument
  /-- fewer open brackets -/
  | lessNesting
  /-- the bracket that closes a nested call -/
  | closingBracket
  /-- the end of a key -/
  | keyEnd
  /-- the end of a key, where a bracket closes nothing -/
  | keyEndUnmatched
  /-- one of the given terminals of the grammar -/
  | terminals (names : List String)
deriving DecidableEq, Repr

/-- How many brackets may be open at once. -/
def maxDepth : Nat := 64

/-- The readable name of a terminal of the grammar; other names stand for themselves. -/
def readableTerminal (name : String) : String :=
  if name = "NAME" then "identifier"
  else if name = "COLON" then "':'"
  else if name = "COMMA" then "','"
  else if name = "LSQB" then "'['"
  else if name = "RSQB" then "']'"
  else if name = "$END" then "end of input"
  else name

/-- The wording of an expectation. -/
def Expectation.text : Expectation → String
  | .token => "identifier or one of ':', ',', '[', ']'"
  | .keyOrFunction => "key name or key function"
  | .keyAfterComma => "key after ','"
  | .functionName => "function name"
  | .colonAfterName => "':' after function name"
  | .argument => "argument"
  | .argumentAfterColon => "argument after ':'"
  | .literalArgument => "literal argument"
  | .lessNesting => "at most " ++ toString maxDepth ++ " nested function calls"
  | .closingBracket => "']' to close '['"
  | .keyEnd => "',' or end of input"
  | .keyEndUnmatched => "',' or end of input (unmatched ']')"
  | .terminals [] => "valid input"
  | .terminals names =>
    Text.join " or " ((names.map readableTerminal).mergeSort fun a b => a ≤ b)

/-- Why a line is not a key definition. -/
inductive Diagnostic where
  /-- no token or no production of the grammar fits at `offset` -/
  | malformed (offset : Int) (expected : Expectation) (found : Option String)
  /-- a bare identifier that is not in the catalog -/
  | unknownName (name : String) (offset : Int) (suggestions : List String)
  /-- an identifier before a colon that is not in the registry -/
  | unknownFunction (name : String) (offset : Int) (suggestions : List String)
  /-- a call whose argument count does not fit -/
  | arityMismatch (function : String) (expected : Arity) (got : Nat) (offset : Int)
  /-- a line without any key -/
  | emptyDefinition
deriving DecidableEq, Repr

/-- The kinds of diagnostics; `general` is a failure with no closer kind. -/
inductive DiagnosticKind where
  | general
  | malformed
  | unknownName
  | unknownFunction
  | arityMismatch
  | emptyDefinition
deriving DecidableEq, Repr

/-- The name of a kind of diagnostic in error lines. -/
def DiagnosticKind.label : DiagnosticKind → String
  | .general => "ParseError"
  | .malformed => "KeySyntaxError"
  | .unknownName => "UnknownKeyName"
  | .unknownFunction => "UnknownKeyFunction"
  | .arityMismatch => "ArityMismatch"
  | .emptyDefinition => "EmptyDefinition"

/-- What a reader sees of a diagnostic. -/
structure Report where
  kind : DiagnosticKind
  offset : Option Int
  detail : String
  /-- the detail, after its place if there is one -/
  message : String
deriving DecidableEq, Repr

namespace Report

/-- The report of a detail at a place, if the place can be written. -/
def make? (kind : DiagnosticKind) (offset : Option Int) (detail : String) : Option Report :=
  match offset with
  | none => some ⟨kind, none, detail, detail⟩
  | some n => do
    let column ← Decimal.write? n
    return ⟨kind, offset, detail, "column " ++ column ++ ": " ++ detail⟩

/-- The report as the shell prints it. -/
def line (r : Report) : String :=
  "error: " ++ r.kind.label ++
    (match r.offset with
    | none => ""
    | some offset => " at offset " ++ toString offset) ++
    ": " ++ r.detail

/-- The report as debug output shows it. -/
def debugText (r : Report) : String :=
  r.kind.label ++ "(" ++ Text.quoted r.message ++ ")"

end Report

namespace Diagnostic

/-- The detail of a malformed line. -/
def malformedDetail (expected : String) (found : Option String) : String :=
  match found with
  | none => "expected " ++ expected
  | some f => "expected " ++ expected ++ ", found " ++ Text.quoted f

/-- The detail of an unknown name; `noun` says what was looked up. -/
def unknownDetail (noun name : String) (suggestions : List String) : String :=
  let said := "unknown " ++ noun ++ " " ++ Text.quoted name
  if suggestions.isEmpty then said
  else said ++ " (did you mean " ++ Suggestion.alternatives suggestions ++ "?)"

/-- The detail of a call with a wrong number of arguments, if the number can be written. -/
def arityDetail? (function expected : String) (got : Int) : Option String := do
  let count ← Decimal.write? got
  return "function " ++ Text.quoted function ++ " takes " ++ expected ++ " argument(s), got " ++ count

/-- The detail of a line without keys. -/
def emptyDetail : String := "key definition is empty"

/-- The kind of a diagnostic. -/
def kind : Diagnostic → DiagnosticKind
  | .malformed .. => .malformed
  | .unknownName .. => .unknownName
  | .unknownFunction .. => .unknownFunction
  | .arityMismatch .. => .arityMismatch
  | .emptyDefinition => .emptyDefinition

/-- Where in the line the diagnostic points; a line without keys has no such place. -/
def offset? : Diagnostic → Option Int
  | .malformed offset .. => some offset
  | .unknownName _ offset _ => some offset
  | .unknownFunction _ offset _ => some offset
  | .arityMismatch _ _ _ offset => some offset
  | .emptyDefinition => none

/-- The diagnostic for a line that has `n` more characters in front. -/
def shift (n : Int) : Diagnostic → Diagnostic
  | .malformed offset expected found => .malformed (n + offset) expected found
  | .unknownName name offset suggestions => .unknownName name (n + offset) suggestions
  | .unknownFunction name offset suggestions => .unknownFunction name (n + offset) suggestions
  | .arityMismatch function expected got offset => .arityMismatch function expected got (n + offset)
  | .emptyDefinition => .emptyDefinition

/-- What is wrong, without the place, if all numbers in it can be written. -/
def detail? : Diagnostic → Option String
  | .malformed _ expected found => some (malformedDetail expected.text found)
  | .unknownName name _ suggestions => some (unknownDetail "key name" name suggestions)
  | .unknownFunction name _ suggestions => some (unknownDetail "key function" name suggestions)
  | .arityMismatch function expected got _ => do
    let expected ← expected.text?
    arityDetail? function expected got
  | .emptyDefinition => some emptyDetail

/-- The report of a diagnostic, if it can be worded. -/
def report? (d : Diagnostic) : Option Report := do
  let detail ← d.detail?
  Report.make? d.kind d.offset? detail

end Diagnostic

end TrafficKey
