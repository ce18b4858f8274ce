import TrafficKey.Catalog
import TrafficKey.Diagnostic
import TrafficKey.Registry
import TrafficKey.Token

/-!
# The tables a line is read with

A catalog and a registry together, and the two look-ups that parsing makes: both fail with a
diagnostic that carries suggestions.
-/

namespace TrafficKey

/-- The known key names and key functions. -/
structure Tables where
  catalog : Catalog
  registry : Registry

namespace Tables

/-- The built-in tables. -/
def builtin : Tables := ⟨.builtin, .builtin⟩

/-- The tables without any entry. -/
def empty : Tables := ⟨.empty, .empty⟩

/-- The diagnostic for a key name that is not in the catalog. -/
def nameDiagnostic (t : Tables) (name : String) (offset : Int) : Diagnostic :=
  .unknownName name offset (Suggestion.closest name t.catalog.names)

/-- The diagnostic for a function that is not in the registry. -/
def functionDiagnostic (t : Tables) (name : String) (offset : Int) : Diagnostic :=
  .unknownFunction name offset (Suggestion.closest name t.registry.names)

end Tables

end TrafficKey
