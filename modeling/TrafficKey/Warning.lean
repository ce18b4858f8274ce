import TrafficKey.Definition
import TrafficKey.Text.Blank
import TrafficKey.Text.Quoted

/-!
# Warnings

Suspicious but valid definitions: keys that repeat an earlier key, and labels that a group call lists
more than once.
-/

namespace TrafficKey

/-- A remark on a definition, or on one of its keys. -/
structure Warning where
  message : String
  keyIndex : Option Int := none
deriving DecidableEq, Repr

namespace Warning

/-- A warning with its place. -/
def text (w : Warning) : String :=
  (match w.keyIndex with
  | some i => "key " ++ toString i
  | none => "definition") ++ ": " ++ w.message

/-- Warnings, one per line. -/
def lines (ws : List Warning) : String :=
  Text.join "\n" (ws.map text)

/-- The warning that a key repeats the key at index `first`. -/
def repeatedKey (label : String) (first index : Nat) : Warning :=
  ⟨"key " ++ Text.quoted label ++ " repeats key " ++ toString first, some index⟩

/-- The warning that a group call lists a label again. -/
def repeatedLabel (label : String) (index : Int) : Warning :=
  ⟨"group label " ++ Text.quoted label ++ " is listed more than once", some index⟩

/-- One warning for each label that already occurred, in `seen` or earlier in the list. -/
def ofLabels (index : Int) : List String → List String → List Warning
  | _, [] => []
  | seen, label :: labels =>
    let rest := ofLabels index (label :: seen) labels
    if label ∈ seen then repeatedLabel label index :: rest else rest

end Warning

/-- The value of a literal argument. -/
def Argument.literal? : Argument → Option String
  | .literal value => some value
  | _ => none

/-- The labels of a group call: its literal arguments after the first argument. -/
def Call.labels (c : Call) : List String :=
  c.args.tail.filterMap Argument.literal?

mutual

/-- The calls inside an argument, outer calls before inner ones. -/
def Argument.calls : Argument → List Call
  | .nested callee args => ⟨callee, args⟩ :: Argument.callsOf args
  | _ => []

/-- The calls inside the arguments of a list, in order. -/
def Argument.callsOf : List Argument → List Call
  | [] => []
  | arg :: args => arg.calls ++ Argument.callsOf args

end

/-- The calls of a key, outer calls before inner ones. -/
def Key.calls : Key → List Call
  | .name _ => []
  | .computed call => call :: Argument.callsOf call.args

/-- How a repeated key is called in a warning. -/
def Key.warningLabel : Key → String
  | .name entry => entry.name
  | .computed call => call.callee.name ++ ":..."

/-- The warnings about the labels of a key's group calls. -/
def Key.labelWarnings (key : Key) (index : Nat) : List Warning :=
  (key.calls.filter (·.callee.kind = .group)).flatMap fun call =>
    Warning.ofLabels index [] call.labels

/-- The warnings about the keys from `index` on; `seen` holds the distinct keys before, each with its
first index. -/
def Key.warningsFrom (index : Nat) (seen : List (Key × Nat)) : List Key → List Warning
  | [] => []
  | key :: keys =>
    match seen.find? (·.1.same key) with
    | some (_, first) =>
      Warning.repeatedKey key.warningLabel first index :: key.labelWarnings index ++
        Key.warningsFrom (index + 1) seen keys
    | none =>
      key.labelWarnings index ++ Key.warningsFrom (index + 1) (seen ++ [(key, index)]) keys

/-- The warnings about a definition, in the order of its keys. -/
def Definition.warnings (d : Definition) : List Warning :=
  Key.warningsFrom 0 [] d.keys

end TrafficKey
