import TrafficKey.Data.Json
import TrafficKey.Node
import TrafficKey.Text.Blank

/-!
# Output formats

The formats in which a definition is printed. `dump` writes a value as YAML.
-/

namespace TrafficKey

/-- An output format. -/
inductive Format where
  | debug
  | tree
  | yaml
  | json
deriving DecidableEq, Repr

namespace Format

/-- The word for a format. -/
def label : Format → String
  | .debug => "debug"
  | .tree => "tree"
  | .yaml => "yaml"
  | .json => "json"

instance : Coe Format String := ⟨label⟩

/-- All formats, in the order in which messages list them. -/
def all : List Format := [.debug, .tree, .yaml, .json]

/-- The format of a word. -/
def ofLabel? (s : String) : Option Format :=
  all.find? (·.label == s)

end Format

/-- A definition in a format. -/
def Definition.render (dump : Data → String) (d : Definition) : Format → String
  | .debug => d.debugText
  | .tree => d.tree
  | .yaml => Text.trimmedRight (dump d.data)
  | .json => Json.pretty d.data

/-- A loose node in the format of a word. -/
def Node.render (dump : Data → String) (n : Node) (format : String) : Except NodeFault String :=
  match Format.ofLabel? format with
  | some .debug => .ok n.debugText
  | some .tree => n.tree
  | some .yaml => do return Text.trimmedRight (dump (← n.data))
  | some .json => do return Json.pretty (← n.data)
  | none => .error (.unknownFormat format)

end TrafficKey
