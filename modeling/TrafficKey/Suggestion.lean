import TrafficKey.Text.Blank
import TrafficKey.Text.Distance
import TrafficKey.Text.LowerCase

/-!
# Suggestions for misspelt names

Which of the known names are close to an unknown one, and how a list of alternatives is worded.
Closeness is edit distance between the lower-case forms; ties are broken by the order of names.
-/

namespace TrafficKey.Suggestion

/-- A name with its distance from the name that was asked for. -/
structure Scored where
  distance : Nat
  name : String
deriving DecidableEq, Repr

/-- Closer names come first, and equally close ones in the order of their characters. -/
def Scored.le (a b : Scored) : Bool :=
  a.distance < b.distance || (a.distance == b.distance && a.name ≤ b.name)

/-- The distance between two names, letter case ignored. -/
def nameDistance (a b : String) : Nat :=
  Text.distance (Text.lower a).toList (Text.lower b).toList

/-- The candidates other than `name` within `maxDistance` edits of it, closest first. -/
def ranked (name : String) (candidates : List String) (maxDistance : Int) : List Scored :=
  let scored := (candidates.filter (· ≠ name)).map fun c => ⟨nameDistance name c, c⟩
  (scored.filter fun s => (s.distance : Int) ≤ maxDistance).mergeSort Scored.le

/-- The first `limit` members of a list; a negative limit leaves out that many from the end. -/
def takeLimit {α : Type} (limit : Int) (xs : List α) : List α :=
  if 0 ≤ limit then xs.take limit.toNat else xs.take (xs.length - limit.natAbs)

/-- The best suggestions for `name` among the candidates. -/
def similar (name : String) (candidates : List String) (maxDistance limit : Int) : List String :=
  takeLimit limit ((ranked name candidates maxDistance).map (·.name))

/-- The suggestions of a diagnostic: at most three names, at most three edits away. -/
def closest (name : String) (candidates : List String) : List String :=
  similar name candidates 3 3

/-- Alternatives in words: `'a', 'b' or 'c'`. -/
def alternatives (names : List String) : String :=
  let inQuotes := names.map fun n => "'" ++ n ++ "'"
  match inQuotes.reverse with
  | [] => ""
  | [only] => only
  | last :: before => Text.join ", " before.reverse ++ " or " ++ last

end TrafficKey.Suggestion
