import TrafficKey.Decimal.Write
import TrafficKey.Text.Quoted

/-!
# Shapes of key functions

How many arguments a function takes, what each argument position accepts, and which kind of call a
function builds. A shape carries its invariants: it declares at least one argument kind, takes at
least one argument, and has trailing labels only if its arity is open-ended.
-/

namespace TrafficKey

/-- An exact argument count, or a least one for open-ended functions. -/
structure Arity where
  minimum : Int
  variadic : Bool := false
deriving DecidableEq, Repr

namespace Arity

/-- Exactly `n` arguments. -/
def exact (n : Int) : Arity := ⟨n, false⟩

/-- `n` arguments or more. -/
def atLeast (n : Int) : Arity := ⟨n, true⟩

/-- The greatest argument count, if there is one. -/
def maximum (a : Arity) : Option Int :=
  if a.variadic then none else some a.minimum

/-- Whether a call may have `count` arguments. -/
def accepts (a : Arity) (count : Int) : Bool :=
  if a.variadic then a.minimum ≤ count else count == a.minimum

/-- An arity in words, if its count can be written. -/
def text? (a : Arity) : Option String := do
  let minimum ← Decimal.write? a.minimum
  return (if a.variadic then "at least " else "exactly ") ++ minimum

/-- An arity with its fields, as debug output shows it, if its count can be written. -/
def debugText? (a : Arity) : Option String := do
  let minimum ← Decimal.write? a.minimum
  return "Arity(minimum=" ++ minimum ++ ", variadic=" ++
    (if a.variadic then "True" else "False") ++ ")"

end Arity

/-- What an argument position accepts. -/
inductive ArgKind where
  /-- a bare identifier only -/
  | literal
  /-- a key name of the catalog, or a nested call -/
  | key
  /-- a bare identifier or a nested call -/
  | keyOrLiteral
deriving DecidableEq, Repr

namespace ArgKind

/-- The word for an argument kind in extension files. -/
def label : ArgKind → String
  | .literal => "literal"
  | .key => "key"
  | .keyOrLiteral => "key_or_literal"

/-- All argument kinds, in the order in which messages list them. -/
def all : List ArgKind := [.literal, .key, .keyOrLiteral]

/-- The argument kind of a word. -/
def ofLabel? (s : String) : Option ArgKind :=
  all.find? (·.label == s)

end ArgKind

/-- The kinds of function calls. -/
inductive CallKind where
  | plain
  /-- classifies a key into labels -/
  | group
  /-- resolves an address to a country -/
  | country
  /-- a kind of call that comes with a function's declaration, known by its name -/
  | custom (label : String)
deriving DecidableEq, Repr

/-- The name of a kind of call in structural views. -/
def CallKind.label : CallKind → String
  | .plain => "FunctionCall"
  | .group => "GroupCall"
  | .country => "CountryCall"
  | .custom label => label

/-- The declaration of one key function. -/
structure FunctionShape where
  name : String
  arity : Arity
  kinds : List ArgKind
  trailingLabels : Bool := false
  call : CallKind := .plain
  description : String := ""
  kinds_ne_nil : kinds ≠ [] := by decide
  one_le_minimum : 1 ≤ arity.minimum := by decide
  variadic_of_labels : trailingLabels = true → arity.variadic = true := by decide
deriving DecidableEq

/-- Why a function cannot be declared. -/
inductive ShapeFault where
  | noKinds (name : String)
  | noArguments (name : String)
  | fixedArityLabels (name : String)
deriving DecidableEq, Repr

/-- The wording of a declaration fault. -/
def ShapeFault.message : ShapeFault → String
  | .noKinds name => "Function " ++ Text.quoted name ++ " must declare at least one argument kind"
  | .noArguments name => "Function " ++ Text.quoted name ++ " must take at least one argument"
  | .fixedArityLabels name =>
    "Function " ++ Text.quoted name ++ " has trailing labels but a fixed arity"

namespace FunctionShape

/-- Declares a function, checking the invariants in order. -/
def declare (name : String) (arity : Arity) (kinds : List ArgKind) (trailingLabels : Bool)
    (call : CallKind) (description : String) : Except ShapeFault FunctionShape :=
  if hk : kinds = [] then .error (.noKinds name)
  else if ha : arity.minimum < 1 then .error (.noArguments name)
  else if hl : trailingLabels = true ∧ arity.variadic = false then .error (.fixedArityLabels name)
  else .ok {
    name, arity, kinds, trailingLabels, call, description
    kinds_ne_nil := hk
    one_le_minimum := by omega
    variadic_of_labels := by
      intro h
      cases hv : arity.variadic
      · exact absurd ⟨h, hv⟩ hl
      · rfl }

/-- What argument position `i` accepts. Past the declared kinds come labels, or else the last kind
again as long as the arity allows; `none` means past the arity. -/
def kindAt (s : FunctionShape) (i : Nat) : Option ArgKind :=
  match s.kinds[i]? with
  | some kind => some kind
  | none =>
    if s.trailingLabels then some .literal
    else if s.arity.variadic || (i : Int) < s.arity.minimum then s.kinds.getLast?
    else none

/-- `kindAt` for any position: a negative one counts from the end of the declared kinds, and
`Except.error ()` is a position before the first. -/
def kindAtSigned (s : FunctionShape) (i : Int) : Except Unit (Option ArgKind) :=
  if 0 ≤ i then .ok (s.kindAt i.toNat)
  else if i.natAbs ≤ s.kinds.length then .ok s.kinds[s.kinds.length - i.natAbs]?
  else .error ()

/-- Equality of shapes; the kind of call and the description do not count. -/
def same (a b : FunctionShape) : Bool :=
  a.name == b.name && a.arity == b.arity && a.kinds == b.kinds &&
    a.trailingLabels == b.trailingLabels

end FunctionShape

end TrafficKey
