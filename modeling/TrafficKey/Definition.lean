import TrafficKey.Catalog
import TrafficKey.Shape

/-!
# Key definitions

The meaning of a line: a non-empty list of keys. A key is a name of the catalog or is computed by a
function call, whose arguments are literals, key names and nested calls.
-/

namespace TrafficKey

/-- What is called: the kind of call and the function's name. -/
structure Callee where
  kind : CallKind
  name : String
deriving DecidableEq, Repr

/-- An argument of a function call. -/
inductive Argument where
  /-- a bare word, such as a label -/
  | literal (value : String)
  /-- a key name -/
  | key (entry : KeyName)
  /-- a function call in brackets -/
  | nested (callee : Callee) (args : List Argument)
deriving Repr

/-- A function call. -/
structure Call where
  callee : Callee
  args : List Argument
deriving Repr

/-- A key of a definition. -/
inductive Key where
  /-- a key of the catalog -/
  | name (entry : KeyName)
  /-- a key computed by a function -/
  | computed (call : Call)
deriving Repr

/-- A key definition: at least one key, in order. -/
structure Definition where
  keys : List Key
  keys_ne_nil : keys ≠ []

/-- The call as an argument of another call. -/
def Call.asArgument (c : Call) : Argument :=
  .nested c.callee c.args

/-- A call that a shape builds. -/
def FunctionShape.build (s : FunctionShape) (args : List Argument) : Call :=
  ⟨⟨s.call, s.name⟩, args⟩

/-- The name of a key: its key name, or the function that computes it. -/
def Key.label : Key → String
  | .name entry => entry.name
  | .computed call => call.callee.name

/-- The definition whose keys are those of a list and one more. -/
def Definition.snoc (keys : List Key) (last : Key) : Definition :=
  ⟨keys ++ [last], by simp⟩

/-! ## Equality

Two definitions are the same when they agree in everything but the descriptions of their key
names. -/

mutual

/-- Whether two arguments are the same, descriptions ignored. -/
def Argument.same : Argument → Argument → Bool
  | .literal a, .literal b => a == b
  | .key a, .key b => a.name == b.name
  | .nested f as, .nested g bs => f == g && Argument.sameAll as bs
  | _, _ => false

/-- Whether two argument lists are the same, descriptions ignored. -/
def Argument.sameAll : List Argument → List Argument → Bool
  | [], [] => true
  | a :: as, b :: bs => a.same b && Argument.sameAll as bs
  | _, _ => false

end

/-- Whether two calls are the same, descriptions ignored. -/
def Call.same (a b : Call) : Bool :=
  a.callee == b.callee && Argument.sameAll a.args b.args

/-- Whether two keys are the same, descriptions ignored. -/
def Key.same : Key → Key → Bool
  | .name a, .name b => a.name == b.name
  | .computed a, .computed b => a.same b
  | _, _ => false

/-- Whether two lists of keys are the same, descriptions ignored. -/
def Key.sameAll : List Key → List Key → Bool
  | [], [] => true
  | a :: as, b :: bs => a.same b && Key.sameAll as bs
  | _, _ => false

/-- Whether two definitions are the same, descriptions ignored. -/
def Definition.same (a b : Definition) : Bool :=
  Key.sameAll a.keys b.keys

/-! ## Text

The text of a definition is the line that is read as it. -/

mutual

/-- The text of an argument; a nested call stands in brackets. -/
def Argument.text : Argument → String
  | .literal value => value
  | .key entry => entry.name
  | .nested callee args => "[" ++ callee.name ++ Argument.texts args ++ "]"

/-- The text of an argument list: each argument after a colon. -/
def Argument.texts : List Argument → String
  | [] => ""
  | arg :: args => ":" ++ arg.text ++ Argument.texts args

end

/-- The text of a call. -/
def Call.text (c : Call) : String :=
  c.callee.name ++ Argument.texts c.args

/-- The text of a key. -/
def Key.text : Key → String
  | .name entry => entry.name
  | .computed call => call.text

/-- The text of keys that follow another key: each after a comma. -/
def Key.texts : List Key → String
  | [] => ""
  | key :: keys => "," ++ key.text ++ Key.texts keys

/-- The text of a definition: its keys with commas between them. -/
def Definition.text (d : Definition) : String :=
  match d.keys with
  | [] => ""
  | key :: keys => key.text ++ Key.texts keys

end TrafficKey
