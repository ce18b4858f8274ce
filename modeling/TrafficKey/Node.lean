import TrafficKey.View
import TrafficKey.Warning

/-!
# Loose nodes

Trees of definition parts that need not fit together: a literal where a key should be, a number where
an argument should be. Every view of a definition also exists for a loose node and fails with a fault
that names the first part that does not fit. `Definition.toNode` embeds the definitions.
-/

namespace TrafficKey

/-- A part of a definition whose own parts can be anything. -/
inductive Node where
  | keyName (entry : KeyName)
  | literal (value : String)
  | application (kind : CallKind) (name : String) (args : List Node)
  | nested (call : Node)
  | computed (call : Node)
  | definition (keys : List Node)
  | plain (value : Data)
deriving Inhabited

/-- Why a loose node has no such view. -/
inductive NodeFault where
  /-- a part that has no text -/
  | notText (type : String)
  /-- a part that is no key -/
  | notKey (type : String)
  /-- a part that is no argument -/
  | notArgument (type : String)
  /-- a literal that is used as a key -/
  | literalKey (value : String)
  /-- a part without the field that was asked for -/
  | noField (type field : String)
  /-- a call without the argument that was asked for -/
  | noArgument
  /-- a part without a length -/
  | noLength (type : String)
  /-- a part that has no items -/
  | noItems (type : String)
  /-- a part whose items have no order -/
  | noIndex (type : String)
  /-- a definition without keys -/
  | noKeys
  /-- an output format that does not exist -/
  | unknownFormat (format : String)
deriving DecidableEq, Repr

/-- The wording of a fault. -/
def NodeFault.message : NodeFault → String
  | .notText type => "Cannot render " ++ type ++ " as key definition text"
  | .notKey type => "Unknown key type: " ++ type
  | .notArgument type => "Unknown argument type: " ++ type
  | .literalKey value => "literal argument " ++ Text.quoted value ++ " is not a key"
  | .noField type field => "'" ++ type ++ "' object has no attribute '" ++ field ++ "'"
  | .noArgument => "tuple index out of range"
  | .noLength type => "object of type '" ++ type ++ "' has no len()"
  | .noItems type => "'" ++ type ++ "' object is not iterable"
  | .noIndex type => "'" ++ type ++ "' object is not subscriptable"
  | .noKeys => "KeyDefinition requires at least one key"
  | .unknownFormat format => "Unknown format: " ++ format

namespace Node

/-- The name of a node's type in messages. -/
def typeName : Node → String
  | .keyName _ => "KeyName"
  | .literal _ => "Literal"
  | .application kind _ _ => kind.label
  | .nested _ => "Nested"
  | .computed _ => "KeyFunction"
  | .definition _ => "KeyDefinition"
  | .plain value => value.typeName

/-- A definition of loose nodes, which needs at least one key. -/
def ofKeys (keys : List Node) : Except NodeFault Node :=
  if keys.isEmpty then .error .noKeys else .ok (.definition keys)

/-- The fault of a missing field. -/
def missing {α : Type} (n : Node) (field : String) : Except NodeFault α :=
  .error (.noField n.typeName field)

/-! ## Fields -/

/-- The name of a key or call; a computed key has the name of its call. -/
def nameField : Node → Except NodeFault String
  | .keyName entry => .ok entry.name
  | .application _ name _ => .ok name
  | .computed call => call.nameField
  | n => n.missing "name"

/-- The value of a literal. -/
def valueField : Node → Except NodeFault String
  | .literal value => .ok value
  | n => n.missing "value"

/-- The arguments of a call. -/
def argsField : Node → Except NodeFault (List Node)
  | .application _ _ args => .ok args
  | n => n.missing "args"

/-- The call of a nested argument or a computed key. -/
def callField : Node → Except NodeFault Node
  | .nested call => .ok call
  | .computed call => .ok call
  | n => n.missing "call"

/-- The keys of a definition. -/
def keysField : Node → Except NodeFault (List Node)
  | .definition keys => .ok keys
  | n => n.missing "keys"

/-- The first argument of a call. -/
def firstArgument : List Node → Except NodeFault Node
  | [] => .error .noArgument
  | arg :: _ => .ok arg

/-- An argument as a key: a nested call becomes a computed key. -/
def asKey : Node → Except NodeFault Node
  | .nested call => .ok (.computed call)
  | .keyName entry => .ok (.keyName entry)
  | n => do .error (.literalKey (← n.valueField))

/-- The key that a group call classifies. -/
def groupKey : Node → Except NodeFault Node
  | .application .group _ args => do (← firstArgument args).asKey
  | n => n.missing "key"

/-- The labels of a group call. -/
def labels : Node → Except NodeFault (List String)
  | .application .group _ args => args.tail.mapM valueField
  | n => n.missing "labels"

/-- The argument of a country call. -/
def countryArgument : Node → Except NodeFault String
  | .application .country _ args => do (← firstArgument args).valueField
  | n => n.missing "argument"

/-- The number of keys of a definition; a plain string has its length. -/
def length : Node → Except NodeFault Nat
  | .definition keys => .ok keys.length
  | .plain (.str s) => .ok s.length
  | n => .error (.noLength n.typeName)

/-- The names of a definition's keys. -/
def keyNames : Node → Except NodeFault (List String)
  | .definition keys => keys.mapM nameField
  | n => .error (.noItems n.typeName)

/-- The last key of a definition. -/
def lastKey : Node → Except NodeFault Node
  | .definition keys =>
    match keys.getLast? with
    | some key => .ok key
    | none => .error .noArgument
  | n => .error (.noIndex n.typeName)

/-! ## Equality -/

mutual

/-- Whether two nodes are the same, descriptions ignored. -/
def same : Node → Node → Bool
  | .keyName a, .keyName b => a.name == b.name
  | .literal a, .literal b => a == b
  | .application k f as, .application l g bs => k == l && f == g && sameAll as bs
  | .nested a, .nested b => a.same b
  | .computed a, .computed b => a.same b
  | .definition as, .definition bs => sameAll as bs
  | .plain a, .plain b => a.same b
  | _, _ => false

/-- Whether two lists of nodes are the same, descriptions ignored. -/
def sameAll : List Node → List Node → Bool
  | [], [] => true
  | a :: as, b :: bs => a.same b && sameAll as bs
  | _, _ => false

end

/-! ## Text -/

mutual

/-- The text of a node. -/
def text : Node → Except NodeFault String
  | .definition [] => .ok ""
  | .definition (key :: keys) => do
    let head ← key.text
    let tail ← textsAfter "," keys
    return head ++ tail
  | .keyName entry => .ok entry.name
  | .computed call => call.text
  | .application _ name args => do return name ++ (← textsAfter ":" args)
  | .nested call => do return "[" ++ (← call.text) ++ "]"
  | .literal value => .ok value
  | .plain value => .error (.notText value.typeName)

/-- The texts of nodes, each after a separator. -/
def textsAfter (sep : String) : List Node → Except NodeFault String
  | [] => .ok ""
  | n :: ns => do
    let head ← n.text
    let tail ← textsAfter sep ns
    return sep ++ head ++ tail

end

/-! ## Plain data -/

mutual

/-- A call as data. -/
def callData : Node → Except NodeFault Data
  | .application _ name args => do
    let args ← argumentsData args
    return .record [("function", .str name), ("args", .list args)]
  | n => do
    let _ ← n.nameField
    n.missing "args"

/-- An argument as data. -/
def argumentData : Node → Except NodeFault Data
  | .literal value => .ok (.record [("literal", .str value)])
  | .keyName entry => .ok (.record [("key", .str entry.name)])
  | .nested call => do return .record [("call", ← call.callData)]
  | n => .error (.notArgument n.typeName)

/-- Arguments as data. -/
def argumentsData : List Node → Except NodeFault (List Data)
  | [] => .ok []
  | arg :: args => do
    let head ← arg.argumentData
    let tail ← argumentsData args
    return head :: tail

end

/-- A key as data. -/
def keyData : Node → Except NodeFault Data
  | .keyName entry => .ok (.record [("key", .str entry.name)])
  | .computed call => do return .record [("call", ← call.callData)]
  | n => .error (.notKey n.typeName)

/-- A definition as data. -/
def data (n : Node) : Except NodeFault Data := do
  let keys ← n.keysField
  return .record [("keys", .list (← keys.mapM keyData))]

/-! ## Tree -/

mutual

/-- The lines of a call: its own line, then those of its arguments. -/
def callTree (level : Nat) : Node → Except NodeFault (List String)
  | .application kind name args => do
    let lines ← argumentTrees (level + 1) args
    return Callee.treeLine level ⟨kind, name⟩ :: lines
  | n => do
    let _ ← n.nameField
    n.missing "args"

/-- The lines of an argument; what is neither nested nor a key name must have a value. -/
def argumentTree (level : Nat) : Node → Except NodeFault (List String)
  | .nested call => do return treeLine level "Nested" :: (← call.callTree (level + 1))
  | .keyName entry => .ok [treeLine level ("KeyName " ++ entry.name)]
  | .literal value => .ok [treeLine level ("Literal " ++ value)]
  | n => n.missing "value"

/-- The lines of arguments. -/
def argumentTrees (level : Nat) : List Node → Except NodeFault (List String)
  | [] => .ok []
  | arg :: args => do
    let head ← arg.argumentTree level
    let tail ← argumentTrees level args
    return head ++ tail

end

/-- The lines of a key; what is not a key name must have a call. -/
def keyTree : Node → Except NodeFault (List String)
  | .keyName entry => .ok [treeLine 1 ("KeyName " ++ entry.name)]
  | n => do return treeLine 1 "KeyFunction" :: (← (← n.callField).callTree 2)

/-- A definition as an indented tree. -/
def tree (n : Node) : Except NodeFault String := do
  let count ← n.length
  let keys ← n.keysField
  let lines ← keys.mapM keyTree
  return Text.join "\n" (treeHead count :: lines.flatten)

/-! ## Debug text -/

mutual

/-- A node in debug text. -/
def debugText : Node → String
  | .keyName entry => entry.nodeText
  | .literal value => "Literal(value=" ++ Text.quoted value ++ ")"
  | .application kind name args => callText kind name (debugTexts args)
  | .nested call => "Nested(call=" ++ call.debugText ++ ")"
  | .computed call => "KeyFunction(call=" ++ call.debugText ++ ")"
  | .definition keys => "KeyDefinition(keys=" ++ tupleText (debugTexts keys) ++ ")"
  | .plain value => value.quotedIn []

/-- Nodes in debug text. -/
def debugTexts : List Node → List String
  | [] => []
  | n :: ns => n.debugText :: debugTexts ns

end

/-! ## Warnings -/

/-- The warnings about the labels of a group call. -/
def labelWarnings (index : Int) (call : Node) : Except NodeFault (List Warning) := do
  return Warning.ofLabels index [] (← call.labels)

mutual

/-- The warnings about a call and the calls inside it. -/
def callWarnings (index : Int) : Node → Except NodeFault (List Warning)
  | .application kind name args => do
    let own ← if kind = .group then labelWarnings index (.application kind name args) else .ok []
    return own ++ (← argumentWarnings index args)
  | n => n.missing "args"

/-- The warnings about the calls inside arguments. -/
def argumentWarnings (index : Int) : List Node → Except NodeFault (List Warning)
  | [] => .ok []
  | .nested call :: args => do
    let head ← call.callWarnings index
    let tail ← argumentWarnings index args
    return head ++ tail
  | _ :: args => argumentWarnings index args

end

/-- How a repeated key is called in a warning. -/
def warningLabel : Node → Except NodeFault String
  | .keyName entry => .ok entry.name
  | n => do return (← n.nameField) ++ ":..."

/-- The warnings about the calls of a key. -/
def keyWarnings (index : Nat) : Node → Except NodeFault (List Warning)
  | .computed call => call.callWarnings index
  | _ => .ok []

/-- The warnings about the keys from `index` on; `seen` holds the distinct keys before, each with its
first index. -/
def warningsFrom (index : Nat) (seen : List (Node × Nat)) :
    List Node → Except NodeFault (List Warning)
  | [] => .ok []
  | key :: keys =>
    match seen.find? (·.1.same key) with
    | some (_, first) => do
      let label ← key.warningLabel
      let own ← key.keyWarnings index
      let rest ← warningsFrom (index + 1) seen keys
      return Warning.repeatedKey label first index :: own ++ rest
    | none => do
      let own ← key.keyWarnings index
      let rest ← warningsFrom (index + 1) (seen ++ [(key, index)]) keys
      return own ++ rest

/-- The warnings about a definition. -/
def warnings (n : Node) : Except NodeFault (List Warning) := do
  warningsFrom 0 [] (← n.keysField)

end Node

/-! ## Embedding -/

mutual

/-- An argument as a loose node. -/
def Argument.toNode : Argument → Node
  | .literal value => .literal value
  | .key entry => .keyName entry
  | .nested callee args => .nested (.application callee.kind callee.name (Argument.toNodes args))

/-- Arguments as loose nodes. -/
def Argument.toNodes : List Argument → List Node
  | [] => []
  | arg :: args => arg.toNode :: Argument.toNodes args

end

/-- A call as a loose node. -/
def Call.toNode (c : Call) : Node :=
  .application c.callee.kind c.callee.name (Argument.toNodes c.args)

/-- A key as a loose node. -/
def Key.toNode : Key → Node
  | .name entry => .keyName entry
  | .computed call => .computed call.toNode

/-- A definition as a loose node. -/
def Definition.toNode (d : Definition) : Node :=
  .definition (d.keys.map Key.toNode)

end TrafficKey
