import TrafficKey.Yaml.Construction

/-!
# Reading YAML

The data of a YAML text that holds at most one document. Scalars get the types of YAML 1.1, a repeated key
keeps its first place and its last value, and the key `<<` merges other mappings in.
-/

namespace TrafficKey.Yaml

/-- The characters that a YAML text can hold. -/
def isTextChar (c : Char) : Bool :=
  let n := c.toNat
  n == 9 || n == 10 || n == 13 || (0x20 ≤ n && n ≤ 0x7E) || n == 0x85 || (0xA0 ≤ n && n ≤ 0xD7FF) ||
    (0xE000 ≤ n && n ≤ 0xFFFD) || 0x10000 ≤ n

namespace Vertices

/-- The value of an entry of a sequence of pairs, by the values of all nodes. -/
def pairData (vs : Vertices) (values : Array Data) (id : Nat) : Data :=
  match vs.entries id with
  | [(key, value)] => .pair (values.getD key .null) (values.getD value .null)
  | _ => .null

/-- The value of a node by the values of all nodes. -/
def nodeData (vs : Vertices) (values : Array Data) (id : Nat) : Data :=
  let v := vs.node id
  let valueOf (i : Nat) : Data := values.getD i .null
  match v.type?, v.content with
  | some (.scalar type), _ => (vs.scalarValue type id).toOption.getD .null
  | some (.collection .sequence), .sequence items => .list (items.map valueOf)
  | some (.collection .pairs), .sequence items => .list (items.map (vs.pairData values))
  | some (.collection .mapping), .mapping entries =>
    .map (entries.foldl (fun map (key, value) => Data.put (valueOf key) (valueOf value) map) [])
  | some (.collection .set), .mapping entries =>
    .set ((entries.foldl (fun map (key, _) => Data.put (valueOf key) .null map) []).map (·.1))
  | _, _ => .null

end Vertices

/-- How deep data can be looked into before it is quoted. -/
def viewDepth : Nat := 6

/-- The values of all nodes, each from the values of its parts. If no node is part of itself, all parts are
complete before the whole, and once through is enough. Otherwise every time through unrolls the values by a
level, and no path that looks into the data and then follows it to the first node that occurs twice is longer
than the number of nodes and the depth of the view. -/
def Graph.values (g : Graph) (vs : Vertices) : Array Data :=
  let pass (values : Array Data) : Array Data :=
    g.completed.foldl (fun values id =>
      let d := vs.nodeData values id
      let d := if g.knotted && (d.items?.isSome || d.entries?.isSome) then .knot id d else d
      values.setIfInBounds id d) values
  let passes := if g.knotted then vs.size + viewDepth else 1
  (List.range passes).foldl (fun values _ => pass values) (Array.replicate vs.size .null)

/-- The data of a YAML text; a text without a document is null. -/
def read (text : String) : Except ReadFault Data := do
  let cs := text.toList
  if cs.all isTextChar then
    match ← Graph.ofTokens (tokensOf cs) with
    | none => return .null
    | some g =>
      let vs ← g.construct
      return (g.values vs).getD g.root .null
  else throw .invalid

end TrafficKey.Yaml
