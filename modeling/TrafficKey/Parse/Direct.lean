import TrafficKey.Definition
import TrafficKey.Tables

/-!
# Reading a definition token by token

The direct parser reads the tokens from left to right and builds the definition as it goes. Its state
is what has been read of the current key, with the calls that are still open, and the keys read so
far. Every name is looked up as soon as the token after it tells what the name stands for, so the
first error in the line is the one reported.

`step` reads one token, `feed` reads many, and `finish` reads the end of input. A rejection also says
how many tokens had been read and how many brackets were open. A `Reader` reads a given list of tokens,
and can be asked again after a failure.

All of these find the diagnostic of a line. Whoever asks for the definition gets the diagnostic only if it
can be worded: `outcome` and `Reader.parse` end in a `Halt`.
-/

namespace TrafficKey.Direct

/-- A call whose arguments are being read. -/
structure OpenCall where
  shape : FunctionShape
  name : Token
  args : List Argument

namespace OpenCall

/-- What the next argument may be. -/
def nextKind (c : OpenCall) : Option ArgKind :=
  c.shape.kindAt c.args.length

/-- The call with one more argument. -/
def push (c : OpenCall) (arg : Argument) : OpenCall :=
  { c with args := c.args ++ [arg] }

/-- The call that has been read. -/
def close (c : OpenCall) : Call :=
  c.shape.build c.args

end OpenCall

/-- What has been read of the current key. `outer` holds the calls around the innermost open one,
nearest first. -/
inductive Stage where
  /-- nothing yet -/
  | start
  /-- nothing yet, after a comma -/
  | afterComma (comma : Token)
  /-- an identifier where a key starts -/
  | keyName (name : Token)
  /-- a call up to a colon -/
  | argument (colon : Token) (call : OpenCall) (outer : List OpenCall)
  /-- a call up to the end of an argument -/
  | afterArgument (call : OpenCall) (outer : List OpenCall)
  /-- a call up to an opening bracket -/
  | opened (call : OpenCall) (outer : List OpenCall)
  /-- a call up to the name after an opening bracket -/
  | named (name : Token) (call : OpenCall) (outer : List OpenCall)

/-- How far a line has been read. -/
structure State where
  stage : Stage := .start
  /-- the keys before the current one -/
  keys : List Key := []
  /-- how many tokens have been read -/
  read : Nat := 0
  /-- how many brackets count as open -/
  depth : Nat := 0

/-- A diagnostic, with the number of tokens read and of brackets open when it was found. -/
structure Rejection where
  diagnostic : Diagnostic
  read : Nat
  depth : Nat
deriving DecidableEq, Repr

namespace State

/-- The state after one more token. -/
def move (s : State) (stage : Stage) : State :=
  { s with stage, read := s.read + 1 }

/-- Rejects the line before the current token is read. -/
def reject {α : Type} (s : State) (d : Diagnostic) : Except Rejection α :=
  .error ⟨d, s.read, s.depth⟩

/-- Rejects the line at a token that does not fit. -/
def unexpected {α : Type} (s : State) (e : Expectation) (token : Token) : Except Rejection α :=
  s.reject (.malformed token.offset e (some token.value))

end State

/-- The diagnostic for a call whose argument count its shape does not accept. -/
def OpenCall.arityDiagnostic (c : OpenCall) : Diagnostic :=
  .arityMismatch c.shape.name c.shape.arity c.args.length c.name.offset

/-- A complete key before a token: the token must be a comma. -/
def endKey (s : State) (key : Key) (token : Token) : Except Rejection State :=
  match token.kind with
  | .comma => .ok { s.move (.afterComma token) with keys := s.keys ++ [key] }
  | .rbracket => s.unexpected .keyEndUnmatched token
  | _ => s.unexpected .keyEnd token

/-- Opens the call of `name` at a colon. -/
def openCall (t : Tables) (s : State) (name colon : Token) (outer : List OpenCall) :
    Except Rejection State :=
  match t.registry.lookup name.value with
  | none => s.reject (t.functionDiagnostic name.value name.offset)
  | some shape => .ok (s.move (.argument colon ⟨shape, name, []⟩ outer))

/-- Reads the token after a colon. -/
def readArgument (t : Tables) (s : State) (call : OpenCall) (outer : List OpenCall)
    (token : Token) : Except Rejection State :=
  match token.kind with
  | .lbracket =>
    if call.nextKind = some .literal then s.unexpected .literalArgument token
    else if maxDepth ≤ s.depth then
      -- the bracket itself counts as read, but opens nothing
      .error ⟨.malformed token.offset .lessNesting none, s.read + 1, s.depth⟩
    else .ok { s.move (.opened call outer) with depth := s.depth + 1 }
  | .identifier =>
    if call.nextKind = some .key then
      match t.catalog.lookup token.value with
      | none => .error ⟨t.nameDiagnostic token.value token.offset, s.read + 1, s.depth⟩
      | some entry => .ok (s.move (.afterArgument (call.push (.key entry)) outer))
    else
      -- past the declared arguments anything goes: the count is checked when the call ends
      .ok (s.move (.afterArgument (call.push (.literal token.value)) outer))
  | _ => s.unexpected .argument token

/-- Reads a token that is not a colon after an argument: it ends the innermost open call. -/
def endCall (s : State) (call : OpenCall) (outer : List OpenCall) (token : Token) :
    Except Rejection State :=
  if call.shape.arity.accepts call.args.length then
    match outer with
    | [] => endKey s (.computed call.close) token
    | parent :: rest =>
      if token.kind = .rbracket then
        .ok { s.move (.afterArgument (parent.push call.close.asArgument) rest) with
          depth := s.depth - 1 }
      else s.unexpected .closingBracket token
  else s.reject call.arityDiagnostic

/-- Reads one token that is not the end of input. -/
def step (t : Tables) (s : State) (token : Token) : Except Rejection State :=
  match s.stage with
  | .start | .afterComma _ =>
    if token.kind = .identifier then .ok (s.move (.keyName token))
    else s.unexpected .keyOrFunction token
  | .keyName name =>
    if token.kind = .colon then openCall t s name token []
    else
      -- an unknown name is reported before the token after it is looked at
      match t.catalog.lookup name.value with
      | none => s.reject (t.nameDiagnostic name.value name.offset)
      | some entry => endKey s (.name entry) token
  | .argument _ call outer => readArgument t s call outer token
  | .afterArgument call outer =>
    if token.kind = .colon then .ok (s.move (.argument token call outer))
    else endCall s call outer token
  | .opened call outer =>
    if token.kind = .identifier then .ok (s.move (.named token call outer))
    else s.unexpected .functionName token
  | .named name call outer =>
    if token.kind = .colon then openCall t s name token (call :: outer)
    else s.unexpected .colonAfterName token

/-- Reads tokens in order, none of which is the end of input. -/
def feed (t : Tables) (s : State) (tokens : List Token) : Except Rejection State :=
  tokens.foldlM (step t) s

/-- Reads the end of input, which stands at offset `stop`. -/
def finish (t : Tables) (s : State) (stop : Int) : Except Rejection Definition :=
  match s.stage with
  | .start => s.reject .emptyDefinition
  | .afterComma comma => s.reject (.malformed comma.offset .keyAfterComma none)
  | .keyName name =>
    match t.catalog.lookup name.value with
    | none => s.reject (t.nameDiagnostic name.value name.offset)
    | some entry => .ok (.snoc s.keys (.name entry))
  | .argument colon _ _ => s.reject (.malformed colon.offset .argumentAfterColon none)
  | .afterArgument call outer =>
    if call.shape.arity.accepts call.args.length then
      match outer with
      | [] => .ok (.snoc s.keys (.computed call.close))
      | _ :: _ => s.reject (.malformed stop .closingBracket none)
    else s.reject call.arityDiagnostic
  | .opened _ _ => s.reject (.malformed stop .functionName none)
  | .named _ _ _ => s.reject (.malformed stop .colonAfterName none)

/-- Reads the tokens of a line, and the end of input at offset `stop`. -/
def readAll (t : Tables) (tokens : List Token) (stop : Int) : Except Rejection Definition := do
  let s ← feed t {} tokens
  finish t s stop

/-- Reads a line. -/
def parse (t : Tables) (line : String) : Except Diagnostic Definition := do
  let tokens ← lineTokens line
  (readAll t tokens (lineEnd line)).mapError Rejection.diagnostic

/-- Why a caller gets no definition. -/
inductive Halt where
  | rejected (d : Diagnostic)
  /-- a number of the diagnostic is too long to be written -/
  | longNumber
  /-- there is no token to read -/
  | noTokens
deriving DecidableEq, Repr

/-- What a caller gets for a diagnostic: the diagnostic, if it can be worded. -/
def Halt.ofDiagnostic (d : Diagnostic) : Halt :=
  if d.report?.isSome then .rejected d else .longNumber

/-- What a caller gets for a line. -/
def outcome (t : Tables) (line : String) : Except Halt Definition :=
  (parse t line).mapError Halt.ofDiagnostic

/-! ## Lists of tokens

A list of tokens need not have an end of input. Past the end of the list its last token is read again
and again, which always ends in a rejection: after one token a second one of its kind can only be read
if it is a closing bracket, and each of these closes an open call. -/

/-- A bound on how many more times a token of this kind can be read. -/
def repeats (kind : TokenKind) : Stage → Nat
  | .start => if kind = .identifier then 1 else 0
  | .afterComma _ => if kind = .identifier then 1 else 0
  | .keyName _ => if kind = .colon ∨ kind = .comma then 1 else 0
  | .argument _ _ _ => if kind = .identifier ∨ kind = .lbracket then 1 else 0
  | .afterArgument _ outer =>
    if kind = .rbracket then outer.length + 1
    else if kind = .colon ∨ kind = .comma then 1 else 0
  | .opened _ _ => if kind = .identifier then 1 else 0
  | .named _ _ _ => if kind = .colon then 1 else 0

theorem repeats_step {t : Tables} {s s' : State} {token : Token} (h : step t s token = .ok s') :
    repeats token.kind s'.stage < repeats token.kind s.stage := by
  unfold step at h
  split at h
  case h_1 | h_2 | h_6 =>
    split at h
    · cases h; simp_all [State.move, repeats]
    · simp [State.unexpected, State.reject] at h
  case h_3 =>
    split at h
    · unfold openCall at h
      split at h
      · simp [State.reject] at h
      · cases h; simp_all [State.move, repeats]
    · split at h
      · simp [State.reject] at h
      · unfold endKey at h
        split at h
        · cases h; simp_all [State.move, repeats]
        · simp [State.unexpected, State.reject] at h
        · simp [State.unexpected, State.reject] at h
  case h_4 =>
    unfold readArgument at h
    split at h
    · split at h
      · simp [State.unexpected, State.reject] at h
      · split at h
        · simp at h
        · cases h; simp_all [State.move, repeats]
    · split at h
      · split at h
        · simp at h
        · cases h; simp_all [State.move, repeats]
      · cases h; simp_all [State.move, repeats]
    · simp [State.unexpected, State.reject] at h
  case h_5 =>
    split at h
    · cases h; simp_all [State.move, repeats]
    · unfold endCall at h
      split at h
      · split at h
        · unfold endKey at h
          split at h
          · cases h; simp_all [State.move, repeats]
          · simp [State.unexpected, State.reject] at h
          · simp [State.unexpected, State.reject] at h
        · split at h
          · cases h; simp_all [State.move, repeats]
          · simp [State.unexpected, State.reject] at h
      · simp [State.reject] at h
  case h_7 =>
    split at h
    · unfold openCall at h
      split at h
      · simp [State.reject] at h
      · cases h; simp_all [State.move, repeats]
    · simp [State.unexpected, State.reject] at h

/-- Reads the same token again and again, until it is rejected. -/
def exhaust (t : Tables) (token : Token) (s : State) : Rejection :=
  match _h : step t s token with
  | .error r => r
  | .ok s' => exhaust t token s'
termination_by repeats token.kind s.stage
decreasing_by exact repeats_step _h

/-- A list of tokens, how many of them have been read, and how many brackets count as open. -/
structure Reader where
  tokens : List Token
  read : Nat := 0
  depth : Nat := 0
deriving DecidableEq, Repr

namespace Reader

/-- The tokens still to be read before the end of input. -/
def body (r : Reader) : List Token :=
  (r.tokens.drop r.read).takeWhile (·.kind ≠ .eof)

/-- The end of input that is still to be read; past the end of the list, its last token counts. -/
def stop? (r : Reader) : Option Token :=
  (r.tokens.drop r.read ++ r.tokens.getLast?.toList).find? (·.kind = .eof)

/-- The reader after a rejection, which keeps what was read and open. -/
def after (r : Reader) (j : Rejection) : Except Halt Definition × Reader :=
  (.error (.ofDiagnostic j.diagnostic), { r with read := j.read, depth := j.depth })

/-- Reads a definition from where the last attempt stopped. -/
def parse (t : Tables) (r : Reader) : Except Halt Definition × Reader :=
  match r.tokens.getLast? with
  | none => (.error .noTokens, r)
  | some last =>
    match feed t { read := r.read, depth := r.depth } r.body with
    | .error j => r.after j
    | .ok s =>
      match r.stop? with
      | none => r.after (exhaust t last s)
      | some stop =>
        match finish t s stop.offset with
        | .error j => r.after j
        | .ok d => (.ok d, { r with read := s.read, depth := s.depth })

end Reader

end TrafficKey.Direct
