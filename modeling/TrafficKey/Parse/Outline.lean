import TrafficKey.Diagnostic
import TrafficKey.Token

/-!
# Outlines: the grammar of a line

The grammar of a line knows punctuation but no tables:

    line     := key (',' key)*
    key      := name | call
    call     := name (':' argument)+
    argument := name | '[' call ']'

An outline is the tree of a line by this grammar. It is built token by token, by a machine that
rejects the first token after which the line cannot be continued, and says which terminals it would
have taken instead.
-/

namespace TrafficKey.Outline

/-- An argument of a call in an outline. -/
inductive Argument where
  | bare (name : Token)
  | nested (name : Token) (args : List Argument)
deriving Repr

/-- A key of an outline. -/
inductive Key where
  | bare (name : Token)
  | call (name : Token) (args : List Argument)
deriving Repr

/-- A call whose arguments are being read. -/
structure OpenCall where
  name : Token
  args : List Argument
deriving Repr

/-- The call with one more argument. -/
def OpenCall.push (c : OpenCall) (arg : Argument) : OpenCall :=
  { c with args := c.args ++ [arg] }

/-- What has been read of the current key. `outer` holds the calls around the innermost open one,
nearest first. -/
inductive Place where
  /-- nothing -/
  | keyStart
  /-- a name -/
  | keyName (name : Token)
  /-- a call up to a colon -/
  | argument (call : OpenCall) (outer : List OpenCall)
  /-- a call up to the end of an argument -/
  | afterArgument (call : OpenCall) (outer : List OpenCall)
  /-- a call up to an opening bracket -/
  | callStart (call : OpenCall) (outer : List OpenCall)
  /-- a call up to the name after an opening bracket -/
  | callName (name : Token) (call : OpenCall) (outer : List OpenCall)
deriving Repr

/-- The machine: the place in the current key, and the keys before it. -/
structure Machine where
  place : Place := .keyStart
  keys : List Key := []
deriving Repr

/-- A token that does not fit, with the terminals that do. -/
structure Unexpected where
  token : Token
  expected : List TokenKind
deriving DecidableEq, Repr

/-- What can follow a token of the grammar when a call, and the key it belongs to, may end: used where
the next token belongs to neither. -/
def afterCall : List TokenKind := [.colon, .comma, .rbracket, .eof]

/-- Reads one token that is not the end of input. -/
def Machine.step (m : Machine) (token : Token) : Except Unexpected Machine :=
  match m.place with
  | .keyStart =>
    match token.kind with
    | .identifier => .ok { m with place := .keyName token }
    | _ => .error ⟨token, [.identifier]⟩
  | .keyName name =>
    match token.kind with
    | .colon => .ok { m with place := .argument ⟨name, []⟩ [] }
    | .comma => .ok ⟨.keyStart, m.keys ++ [.bare name]⟩
    | _ => .error ⟨token, [.colon, .comma, .eof]⟩
  | .argument call outer =>
    match token.kind with
    | .identifier => .ok { m with place := .afterArgument (call.push (.bare token)) outer }
    | .lbracket => .ok { m with place := .callStart call outer }
    | _ => .error ⟨token, [.identifier, .lbracket]⟩
  | .afterArgument call outer =>
    match token.kind, outer with
    | .colon, _ => .ok { m with place := .argument call outer }
    | .comma, [] => .ok ⟨.keyStart, m.keys ++ [.call call.name call.args]⟩
    | .rbracket, parent :: rest =>
      .ok { m with place := .afterArgument (parent.push (.nested call.name call.args)) rest }
    | .rbracket, [] => .error ⟨token, [.comma, .eof]⟩
    | .comma, _ :: _ => .error ⟨token, [.rbracket]⟩
    | _, _ => .error ⟨token, afterCall⟩
  | .callStart call outer =>
    match token.kind with
    | .identifier => .ok { m with place := .callName token call outer }
    | _ => .error ⟨token, [.identifier]⟩
  | .callName name call outer =>
    match token.kind with
    | .colon => .ok { m with place := .argument ⟨name, []⟩ (call :: outer) }
    | _ => .error ⟨token, [.colon]⟩

/-- Reads the end of input: the keys of the line, of which there is at least one. -/
def Machine.finish (m : Machine) (stop : Token) : Except Unexpected (List Key × Key) :=
  match m.place with
  | .keyName name => .ok (m.keys, .bare name)
  | .afterArgument call [] => .ok (m.keys, .call call.name call.args)
  | .afterArgument _ (_ :: _) => .error ⟨stop, [.rbracket]⟩
  | .keyStart => .error ⟨stop, [.identifier]⟩
  | .argument _ _ => .error ⟨stop, [.identifier, .lbracket]⟩
  | .callStart _ _ => .error ⟨stop, [.identifier]⟩
  | .callName _ _ _ => .error ⟨stop, [.colon]⟩

/-- What reads lines by the grammar: it cuts a line into tokens, and is then given the tokens one by one
and at last the end of input. `σ` is what it remembers between two tokens. -/
structure Engine (σ : Type) where
  lex : List Char → Except Unmatched (List Token)
  start : σ
  step : σ → Token → Except Unexpected σ
  finish : σ → Token → Except Unexpected (List Key × Key)

/-- The engine made of the scanner and the machine. -/
def engine : Engine Machine where
  lex := scan 0
  start := {}
  step := Machine.step
  finish := Machine.finish

/-- Why a line has no outline. -/
inductive Fault where
  /-- a character that starts no token -/
  | character (offset : Int) (char : String)
  /-- a token that does not fit; without an offset it stands at the end of the line -/
  | token (isEnd : Bool) (value : String) (offset : Option Int) (expected : List String)
  /-- an input that ends too early -/
  | ended (expected : List String)
  /-- any other failure, perhaps with a place -/
  | other (offset : Option Int)
deriving DecidableEq, Repr

/-- The fault of a character that starts no token. -/
def ofUnmatched (u : Unmatched) : Fault :=
  .character u.offset (String.singleton u.char)

/-- The fault of an unexpected token. -/
def Unexpected.fault (u : Unexpected) : Fault :=
  .token (u.token.kind = .eof) u.token.value (some u.token.offset)
    (u.expected.map TokenKind.terminal)

/-- The diagnostic of a fault in a trimmed line of `length` characters that starts at `base`. -/
def Fault.diagnostic (base : Int) (length : Nat) : Fault → Diagnostic
  | .character offset char => .malformed (base + offset) .token (some char)
  | .token isEnd value offset expected =>
    .malformed (base + offset.getD length) (.terminals expected) (if isEnd then none else some value)
  | .ended expected => .malformed (base + length) (.terminals expected) none
  | .other offset => .malformed (base + max (offset.getD 0) 0) (.terminals []) none

end TrafficKey.Outline
