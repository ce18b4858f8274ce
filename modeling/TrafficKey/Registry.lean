import TrafficKey.Shape
import TrafficKey.Table
import TrafficKey.Text.Blank

/-!
# The registry of key functions

The functions that a definition may call, each with its shape. The parsers know nothing about single
functions: they read everything off the registry.
-/

namespace TrafficKey

instance : Named FunctionShape := ⟨FunctionShape.name⟩

/-- The known key functions. -/
abbrev Registry := Table FunctionShape

namespace Registry

/-- The functions that are always there. -/
def builtinShapes : List FunctionShape := [
  { name := "group", arity := .atLeast 2, kinds := [.key], trailingLabels := true, call := .group
    description := "classify a key's value into one of the listed groups" },
  { name := "country", arity := .exact 1, kinds := [.literal], call := .country
    description := "country code of an address key" },
  { name := "asn", arity := .exact 1, kinds := [.literal]
    description := "autonomous system number of an address key" },
  { name := "or", arity := .atLeast 2, kinds := [.key]
    description := "first of the keys that has a value" },
  { name := "null", arity := .exact 2, kinds := [.key, .literal]
    description := "a key's value, or the given default when it has none" }]

/-- The built-in registry. -/
def builtin : Registry := ⟨builtinShapes, by decide⟩

/-- A registry in one line. -/
def summary (r : Registry) : String :=
  "FunctionRegistry(" ++ Text.join ", " r.names ++ ")"

end Registry

end TrafficKey
