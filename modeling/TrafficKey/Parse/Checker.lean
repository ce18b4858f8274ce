import TrafficKey.Tables

/-!
# Checks in the order of the line

The checker watches the tokens of a line go by and makes every check that needs the tables: names,
argument kinds, argument counts and nesting. It builds nothing, and leaves a token that the grammar
does not allow to the grammar. A `CallFrame` stands for a call that is open, with the number of its
arguments begun so far.

`check` finds the diagnostic at a token; `outcome` is what a caller gets, who sees the diagnostic only if it
can be worded.
-/

namespace TrafficKey

/-- A call that is open. -/
structure CallFrame where
  shape : FunctionShape
  name : Token
  nested : Bool
  args : Nat := 0
deriving DecidableEq

/-- What the checker is waiting for. -/
inductive CheckStage where
  /-- a key must start here -/
  | key
  /-- an identifier was read where a key starts -/
  | keyName
  /-- a comma or the end of input -/
  | afterKey
  /-- a function name after an opening bracket -/
  | callName
  /-- an identifier was read after an opening bracket -/
  | nestedName
  /-- an argument after a colon -/
  | argument
  /-- a colon or the end of the current call -/
  | afterArgument
deriving DecidableEq, Repr

/-- The name of a stage in traces. -/
def CheckStage.label : CheckStage → String
  | .key => "KEY"
  | .keyName => "KEY_NAME"
  | .afterKey => "AFTER_KEY"
  | .callName => "CALL_NAME"
  | .nestedName => "NESTED_NAME"
  | .argument => "ARGUMENT"
  | .afterArgument => "AFTER_ARGUMENT"

/-- Why the checker stops. The last three causes mean that the checker looked at something that is not
there. -/
inductive CheckFault where
  | rejected (d : Diagnostic)
  /-- a number of the diagnostic is too long to be written -/
  | longNumber
  | noFrame
  | noPending
  | noPrevious
deriving DecidableEq, Repr

/-- What a caller gets for a fault: a diagnostic only if it can be worded. -/
def CheckFault.worded : CheckFault → CheckFault
  | .rejected d => if d.report?.isSome then .rejected d else .longNumber
  | fault => fault

/-- The checker's memory. -/
structure Checker where
  stage : CheckStage := .key
  /-- the open calls, innermost first -/
  frames : List CallFrame := []
  /-- how many brackets are open -/
  depth : Nat := 0
  /-- the last identifier that may turn out to be a key or a function -/
  pending : Option Token := none
  /-- the last token -/
  previous : Option Token := none

namespace Checker

/-- Stops with a diagnostic. -/
def reject {α : Type} (d : Diagnostic) : Except CheckFault α :=
  .error (.rejected d)

/-- The identifier that is waiting to be looked up. -/
def pendingName (c : Checker) : Except CheckFault Token :=
  match c.pending with
  | some name => .ok name
  | none => .error .noPending

/-- The token before the current one. -/
def previousToken (c : Checker) : Except CheckFault Token :=
  match c.previous with
  | some token => .ok token
  | none => .error .noPrevious

/-- Looks a key name up in the catalog. -/
def checkName (t : Tables) (base : Int) (token : Token) : Except CheckFault Unit :=
  match t.catalog.lookup token.value with
  | some _ => .ok ()
  | none => reject (t.nameDiagnostic token.value (base + token.offset))

/-- A token after a complete key. -/
def onAfterKey (c : Checker) (token : Token) : Checker :=
  if token.kind = .comma then { c with stage := .key } else c

/-- A token after an argument. Any token but a colon ends the innermost open call. -/
def onAfterArgument (base : Int) (c : Checker) (token : Token) : Except CheckFault Checker :=
  if token.kind = .colon then .ok { c with stage := .argument }
  else
    match c.frames with
    | [] => .error .noFrame
    | frame :: frames =>
      let popped := { c with frames }
      if frame.shape.arity.accepts frame.args then
        if frame.nested then
          -- a token that the grammar refuses here still ends the call, without closing its bracket
          if token.kind = .rbracket then .ok { popped with depth := c.depth - 1 } else .ok popped
        else .ok (onAfterKey { popped with stage := .afterKey } token)
      else
        reject (.arityMismatch frame.shape.name frame.shape.arity frame.args
          (base + frame.name.offset))

/-- Opens the call of the waiting identifier at a colon. -/
def openCall (t : Tables) (base : Int) (c : Checker) (nested : Bool) (colon : Token) :
    Except CheckFault Checker := do
  let name ← c.pendingName
  match t.registry.lookup name.value with
  | none => reject (t.functionDiagnostic name.value (base + name.offset))
  | some shape =>
    onAfterArgument base
      { c with frames := { shape, name, nested } :: c.frames, stage := .afterArgument } colon

/-- A token where a key must start. -/
def onKey (base : Int) (c : Checker) (token : Token) : Except CheckFault Checker :=
  if token.kind = .identifier then .ok { c with pending := some token, stage := .keyName }
  else
    match token.kind, c.previous with
    | .eof, some previous =>
      if previous.kind = .comma then
        reject (.malformed (base + previous.offset) .keyAfterComma none)
      else .ok c
    | _, _ => .ok c

/-- A token after an identifier where a key starts. -/
def onKeyName (t : Tables) (base : Int) (c : Checker) (token : Token) :
    Except CheckFault Checker :=
  if token.kind = .colon then openCall t base c false token
  else do
    let name ← c.pendingName
    checkName t base name
    return onAfterKey { c with stage := .afterKey } token

/-- A token after a colon. -/
def onArgument (t : Tables) (base : Int) (c : Checker) (token : Token) :
    Except CheckFault Checker :=
  match c.frames with
  | [] => .error .noFrame
  | frame :: frames =>
    let kind := frame.shape.kindAt frame.args
    let counted := { c with frames := { frame with args := frame.args + 1 } :: frames }
    match token.kind with
    | .lbracket =>
      if kind = some .literal then
        reject (.malformed (base + token.offset) .literalArgument (some "["))
      else if maxDepth ≤ c.depth then
        reject (.malformed (base + token.offset) .lessNesting none)
      else .ok { counted with depth := c.depth + 1, stage := .callName }
    | .identifier => do
      if kind = some .key then checkName t base token
      return { counted with stage := .afterArgument }
    | .eof => do
      let previous ← c.previousToken
      reject (.malformed (base + previous.offset) .argumentAfterColon none)
    | _ => .ok c

/-- The checks for a token, by what the checker is waiting for. -/
def onToken (t : Tables) (base : Int) (c : Checker) (token : Token) :
    Except CheckFault Checker :=
  match c.stage with
  | .key => onKey base c token
  | .keyName => onKeyName t base c token
  | .afterKey => .ok (onAfterKey c token)
  | .callName =>
    if token.kind = .identifier then .ok { c with pending := some token, stage := .nestedName }
    else .ok c
  | .nestedName =>
    if token.kind = .colon then openCall t base c true token else .ok c
  | .argument => onArgument t base c token
  | .afterArgument => onAfterArgument base c token

/-- Checks one token; `base` is added to every offset. -/
def check (t : Tables) (base : Int) (c : Checker) (token : Token) : Except CheckFault Checker := do
  let checked ← onToken t base c token
  return { checked with previous := some token }

/-- What a caller gets when a token is checked. -/
def outcome (t : Tables) (base : Int) (c : Checker) (token : Token) : Except CheckFault Checker :=
  (check t base c token).mapError CheckFault.worded

end Checker

end TrafficKey
