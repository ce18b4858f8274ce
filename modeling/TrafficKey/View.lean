import TrafficKey.Data.Basic
import TrafficKey.Definition
import TrafficKey.Text.Blank

/-!
# Views of a definition

A definition as plain data, as an indented tree with one node per line, and as debug text that shows
every constructor.
-/

namespace TrafficKey

/-! ## Plain data -/

mutual

/-- An argument as data. -/
def Argument.data : Argument → Data
  | .literal value => .record [("literal", .str value)]
  | .key entry => .record [("key", .str entry.name)]
  | .nested callee args =>
    .record [("call", .record [("function", .str callee.name), ("args", .list (Argument.dataOf args))])]

/-- Arguments as data. -/
def Argument.dataOf : List Argument → List Data
  | [] => []
  | arg :: args => arg.data :: Argument.dataOf args

end

/-- A call as data; its kind is not shown. -/
def Call.data (c : Call) : Data :=
  .record [("function", .str c.callee.name), ("args", .list (Argument.dataOf c.args))]

/-- A key as data. -/
def Key.data : Key → Data
  | .name entry => .record [("key", .str entry.name)]
  | .computed call => .record [("call", call.data)]

/-- A definition as data. -/
def Definition.data (d : Definition) : Data :=
  .record [("keys", .list (d.keys.map Key.data))]

/-! ## Tree -/

/-- A line of the tree, indented by two spaces for each level. -/
def treeLine (level : Nat) (text : String) : String :=
  String.ofList (List.replicate (2 * level) ' ') ++ text

/-- The line of a call. -/
def Callee.treeLine (level : Nat) (c : Callee) : String :=
  TrafficKey.treeLine level (c.kind.label ++ " " ++ c.name)

mutual

/-- The lines of an argument. -/
def Argument.treeLines (level : Nat) : Argument → List String
  | .literal value => [treeLine level ("Literal " ++ value)]
  | .key entry => [treeLine level ("KeyName " ++ entry.name)]
  | .nested callee args =>
    treeLine level "Nested" :: callee.treeLine (level + 1) :: Argument.treeLinesOf (level + 2) args

/-- The lines of arguments. -/
def Argument.treeLinesOf (level : Nat) : List Argument → List String
  | [] => []
  | arg :: args => arg.treeLines level ++ Argument.treeLinesOf level args

end

/-- The lines of a key. -/
def Key.treeLines : Key → List String
  | .name entry => [treeLine 1 ("KeyName " ++ entry.name)]
  | .computed call =>
    treeLine 1 "KeyFunction" :: call.callee.treeLine 2 :: Argument.treeLinesOf 3 call.args

/-- The first line of the tree of a definition with `count` keys. -/
def treeHead (count : Nat) : String :=
  "KeyDefinition (" ++ toString count ++ " key" ++ (if count = 1 then "" else "s") ++ ")"

/-- A definition as an indented tree. -/
def Definition.tree (d : Definition) : String :=
  Text.join "\n" (treeHead d.keys.length :: d.keys.flatMap Key.treeLines)

/-! ## Debug text -/

/-- Parts in parentheses; a single part is followed by a comma. -/
def tupleText : List String → String
  | [part] => "(" ++ part ++ ",)"
  | parts => "(" ++ Text.join ", " parts ++ ")"

/-- A key name as a node of the debug text. -/
def KeyName.nodeText (k : KeyName) : String :=
  "KeyName(token=" ++ k.debugText ++ ")"

/-- A call with its arguments already in debug text. -/
def callText (kind : CallKind) (name : String) (args : List String) : String :=
  kind.label ++ "(name=" ++ Text.quoted name ++ ", args=" ++ tupleText args ++ ")"

mutual

/-- An argument in debug text. -/
def Argument.debugText : Argument → String
  | .literal value => "Literal(value=" ++ Text.quoted value ++ ")"
  | .key entry => entry.nodeText
  | .nested callee args =>
    "Nested(call=" ++ callText callee.kind callee.name (Argument.debugTexts args) ++ ")"

/-- Arguments in debug text. -/
def Argument.debugTexts : List Argument → List String
  | [] => []
  | arg :: args => arg.debugText :: Argument.debugTexts args

end

/-- A call in debug text. -/
def Call.debugText (c : Call) : String :=
  callText c.callee.kind c.callee.name (Argument.debugTexts c.args)

/-- A key in debug text. -/
def Key.debugText : Key → String
  | .name entry => entry.nodeText
  | .computed call => "KeyFunction(call=" ++ call.debugText ++ ")"

/-- A definition in debug text. -/
def Definition.debugText (d : Definition) : String :=
  "KeyDefinition(keys=" ++ tupleText (d.keys.map Key.debugText) ++ ")"

end TrafficKey
