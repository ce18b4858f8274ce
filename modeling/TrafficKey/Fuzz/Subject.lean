import TrafficKey.Parse.Direct
import TrafficKey.Parse.Staged
import TrafficKey.View

/-!
# The parsers under test

What a parser says about a line, as far as the fuzzer compares it, and the two parsers themselves. The staged
parser is that of any engine of the grammar. A subject can be rehearsed: its next calls then do what they are
told, which shows how the fuzzer reports a parser that fails, hangs or disagrees.
-/

namespace TrafficKey.Fuzz

/-- What a parser says about a line. -/
inductive Verdict where
  | accepted (d : Definition)
  | rejected (kind : DiagnosticKind) (offset : Option Int)

namespace Verdict

/-- The verdict of a diagnostic. -/
def ofDiagnostic (d : Diagnostic) : Verdict :=
  .rejected d.kind d.offset?

/-- Whether two verdicts are the same, descriptions of key names ignored. -/
def same : Verdict → Verdict → Bool
  | .accepted a, .accepted b => a.same b
  | .rejected k i, .rejected l j => k == l && i == j
  | _, _ => false

/-- A verdict in debug text. -/
def debugText : Verdict → String
  | .accepted d => d.debugText
  | .rejected kind offset =>
    "(" ++ Text.quoted kind.label ++ ", " ++
      (match offset with
      | some n => toString n
      | none => "None") ++ ")"

end Verdict

/-- An error of a parser that is no diagnostic. -/
structure Crash where
  /-- the kind of error -/
  kind : String
  message : String
deriving DecidableEq, Repr

/-- A crash in one line or, if its message has several, in several. -/
def Crash.text (c : Crash) : String :=
  c.kind ++ ": " ++ c.message

/-- How a call of a parser ends. -/
inductive Attempt where
  | verdict (v : Verdict)
  | crashed (crash : Crash)
  | hung

/-- What a rehearsed call does instead of reading its line. -/
inductive Rehearsal where
  | read (text : String)
  | fail (message : String)
  | hang
deriving DecidableEq, Repr

/-- The two parsers, with what their next calls are told to do. -/
structure Subject where
  /-- how the staged parser reads a line -/
  parseStaged : String → Except Staged.Failure Definition := Staged.parse .builtin
  direct : List Rehearsal := []
  staged : List Rehearsal := []

namespace Subject

/-- What the direct parser says about a line. A diagnostic is taken as it is found: with the built-in tables it
can be worded for every line whose length can be written. -/
def readDirect (line : String) : Attempt :=
  match Direct.parse .builtin line with
  | .ok d => .verdict (.accepted d)
  | .error d => .verdict (.ofDiagnostic d)

/-- The parsers as they are, the staged one with an engine of the grammar. -/
def ofEngine {σ : Type} (e : Outline.Engine σ) : Subject :=
  { parseStaged := Staged.parseWith e .builtin }

@[simp]
theorem parseStaged_ofEngine {σ : Type} (e : Outline.Engine σ) :
    (ofEngine e).parseStaged = Staged.parseWith e .builtin := rfl

/-- What the staged parser says about a line. -/
def readStaged (s : Subject) (line : String) : Attempt :=
  match s.parseStaged line with
  | .ok d => .verdict (.accepted d)
  | .error (.rejected d) => .verdict (.ofDiagnostic d)
  | .error .longNumber => .crashed ⟨"ValueError", Decimal.longMessage⟩
  | .error (.unchecked _) => .crashed ⟨"IndexError", "list index out of range"⟩
  | .error (.unresolved name) => .crashed ⟨"KeyError", Text.quoted name⟩

/-- A call on `line`, perhaps rehearsed. -/
def call (read : String → Attempt) (line : String) : Option Rehearsal → Attempt
  | none => read line
  | some (.read text) => read text
  | some (.fail message) => .crashed ⟨"RuntimeError", message⟩
  | some .hang => .hung

/-- Calls the direct parser. -/
def callDirect (s : Subject) (line : String) : Attempt × Subject :=
  (call readDirect line s.direct.head?, { s with direct := s.direct.tail })

/-- Calls the staged parser. -/
def callStaged (s : Subject) (line : String) : Attempt × Subject :=
  (call s.readStaged line s.staged.head?, { s with staged := s.staged.tail })

end Subject

end TrafficKey.Fuzz
