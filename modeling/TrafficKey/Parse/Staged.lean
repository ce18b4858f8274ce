import TrafficKey.Definition
import TrafficKey.Parse.Checker
import TrafficKey.Parse.Outline

/-!
# Reading a definition in stages

The staged parser cuts the trimmed line into tokens, shows each token first to the checker and then to
the grammar, and only then resolves the outline against the tables. Since the checker sees a token
before the grammar does, a failed look-up early in the line wins over a misplaced token later on.
-/

namespace TrafficKey.Staged

/-- Why the staged parser gives no definition. The last two causes are breaches of its own
assumptions. -/
inductive Failure where
  | rejected (d : Diagnostic)
  /-- a number of the diagnostic is too long to be written -/
  | longNumber
  /-- the checker looked at something that is not there -/
  | unchecked (fault : CheckFault)
  /-- a name of the outline is not in the tables -/
  | unresolved (name : String)
deriving DecidableEq, Repr

/-- The checker and what the engine of the grammar remembers, side by side. -/
structure State (σ : Type) where
  checker : Checker
  reader : σ

/-- A checker's fault as a failure. -/
def ofCheckFault : CheckFault → Failure
  | .rejected d => .rejected d
  | fault => .unchecked fault

/-- A step of the grammar, its fault worded for a trimmed line of `length` characters at `base`. -/
def grammar {α : Type} (base length : Nat) (r : Except Outline.Unexpected α) : Except Failure α :=
  r.mapError fun u => .rejected (u.fault.diagnostic base length)

section

variable {σ : Type} (e : Outline.Engine σ)

/-- Reads one token that is not the end of input. -/
def step (t : Tables) (base length : Nat) (s : State σ) (token : Token) :
    Except Failure (State σ) := do
  let checker ← (s.checker.check t base token).mapError ofCheckFault
  let reader ← grammar base length (e.step s.reader token)
  return ⟨checker, reader⟩

/-- Reads the end of input. -/
def finish (t : Tables) (base length : Nat) (s : State σ) :
    Except Failure (List Outline.Key × Outline.Key) := do
  let stop := Token.stop length
  let _ ← (s.checker.check t base stop).mapError ofCheckFault
  grammar base length (e.finish s.reader stop)

end

/-! ## Resolving an outline -/

/-- The entry of a key name. -/
def resolveName (t : Tables) (name : Token) : Except Failure KeyName :=
  match t.catalog.lookup name.value with
  | some entry => .ok entry
  | none => .error (.unresolved name.value)

/-- The shape of a function. -/
def resolveFunction (t : Tables) (name : Token) : Except Failure FunctionShape :=
  match t.registry.lookup name.value with
  | some shape => .ok shape
  | none => .error (.unresolved name.value)

/-- A bare argument where `kind` is accepted. -/
def resolveBare (t : Tables) (kind : Option ArgKind) (name : Token) : Except Failure Argument :=
  if kind = some .key then return .key (← resolveName t name)
  else return .literal name.value

mutual

/-- An argument where `kind` is accepted. -/
def resolveArgument (t : Tables) (kind : Option ArgKind) :
    Outline.Argument → Except Failure Argument
  | .bare name => resolveBare t kind name
  | .nested name args => do
    let shape ← resolveFunction t name
    let args ← resolveArguments t shape 0 args
    return (shape.build args).asArgument

/-- The arguments of a call from position `i` on. -/
def resolveArguments (t : Tables) (shape : FunctionShape) (i : Nat) :
    List Outline.Argument → Except Failure (List Argument)
  | [] => .ok []
  | arg :: args => do
    let head ← resolveArgument t (shape.kindAt i) arg
    let tail ← resolveArguments t shape (i + 1) args
    return head :: tail

end

/-- A key. -/
def resolveKey (t : Tables) : Outline.Key → Except Failure Key
  | .bare name => return .name (← resolveName t name)
  | .call name args => do
    let shape ← resolveFunction t name
    let args ← resolveArguments t shape 0 args
    return .computed (shape.build args)

/-- A whole line. -/
def resolve (t : Tables) (outline : List Outline.Key × Outline.Key) :
    Except Failure Definition := do
  let keys ← outline.1.mapM (resolveKey t)
  let last ← resolveKey t outline.2
  return .snoc keys last

/-- Reads a line with an engine. -/
def parseWith {σ : Type} (e : Outline.Engine σ) (t : Tables) (line : String) :
    Except Failure Definition :=
  let trimmed := Text.trim line.toList
  let base := Text.indent line.toList
  if trimmed = [] then .error (.rejected .emptyDefinition)
  else do
    let tokens ← (e.lex trimmed).mapError fun u =>
      .rejected ((Outline.ofUnmatched u).diagnostic base trimmed.length)
    let s ← tokens.foldlM (step e t base trimmed.length) ⟨{}, e.start⟩
    let outline ← finish e t base trimmed.length s
    resolve t outline

/-- Reads a line. -/
def parse (t : Tables) (line : String) : Except Failure Definition :=
  parseWith Outline.engine t line

/-- What a caller gets for a failure: a diagnostic only if it can be worded. -/
def Failure.worded : Failure → Failure
  | .rejected d => if d.report?.isSome then .rejected d else .longNumber
  | failure => failure

/-- What a caller gets for a line. -/
def outcome (t : Tables) (line : String) : Except Failure Definition :=
  (parse t line).mapError Failure.worded

end TrafficKey.Staged
