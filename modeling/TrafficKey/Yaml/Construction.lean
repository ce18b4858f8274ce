import TrafficKey.Yaml.Graph

/-!
# Constructing the values of a document

The nodes of a document are constructed level by level: a scalar as soon as it is met, a collection only when
everything that was met before it is done. The first fault in this order is the fault of the document. Before
the entries of a mapping are constructed, those of the mappings that it merges are put in front of them.
-/

namespace TrafficKey.Yaml

/-- The types of collections. -/
inductive CollectionType where
  | sequence
  | mapping
  | set
  /-- a sequence of mappings with one entry each -/
  | pairs
deriving DecidableEq, Repr

/-- The type of a node. -/
inductive NodeType where
  | scalar (type : ScalarType)
  | collection (type : CollectionType)
deriving DecidableEq, Repr

/-- What the tags of the YAML repository start with. -/
def standardTag : String := "tag:yaml.org,2002:"

/-- The types of the YAML repository by their names. -/
def standardTypes : List (String × NodeType) := [
  ("null", .scalar .null), ("bool", .scalar .bool), ("int", .scalar .int), ("float", .scalar .float),
  ("timestamp", .scalar .timestamp), ("binary", .scalar .binary), ("str", .scalar .str),
  ("merge", .scalar .merge), ("value", .scalar .value), ("seq", .collection .sequence),
  ("map", .collection .mapping), ("set", .collection .set), ("omap", .collection .pairs),
  ("pairs", .collection .pairs)]

/-- The type of a tag. -/
def typeOfTag? (name : String) : Option NodeType :=
  if name.startsWith standardTag then standardTypes.lookup (name.drop standardTag.length).toString
  else none

/-- The type of a node, if its tag is known. -/
def Vertex.type? (v : Vertex) : Option NodeType :=
  match v.tag, v.content with
  | .explicit name, _ => typeOfTag? name
  | .implicit, .scalar text => some (.scalar (scalarType text))
  | _, .sequence _ => some (.collection .sequence)
  | _, .mapping _ => some (.collection .mapping)
  | _, _ => some (.scalar .str)

/-- The nodes of a document by number; a number that no node has stands for an empty scalar. -/
abbrev Vertices := Array Vertex

namespace Vertices

/-- The node of a number. -/
def node (vs : Vertices) (id : Nat) : Vertex :=
  vs.getD id ⟨.implicit, .scalar ""⟩

/-- Whether a node has a type. -/
def hasType (vs : Vertices) (id : Nat) (type : ScalarType) : Bool :=
  (vs.node id).type? = some (.scalar type)

/-- The entries of a mapping. -/
def entries (vs : Vertices) (id : Nat) : List (Nat × Nat) :=
  match (vs.node id).content with
  | .mapping entries => entries
  | _ => []

/-- Sets the entries of a mapping. -/
def setEntries (vs : Vertices) (id : Nat) (entries : List (Nat × Nat)) : Vertices :=
  vs.modify id ({ · with content := .mapping entries })

/-! ## Merging -/

mutual

/-- Puts the entries of the mappings that a mapping merges in front of its own, and makes its key `=` a
string. -/
def flatten : Nat → Nat → Vertices → Option Vertices
  | 0, _, _ => none
  | fuel + 1, id, vs => flattenFrom fuel id 0 [] vs

/-- Goes on with the entry at `index`; `merged` are the entries that are merged in so far. An entry that merges
is removed before what it merges is looked at, so a mapping can merge itself. -/
def flattenFrom : Nat → Nat → Nat → List (Nat × Nat) → Vertices → Option Vertices
  | 0, _, _, _, _ => none
  | fuel + 1, id, index, merged, vs =>
    match (vs.entries id).drop index with
    | [] => some (vs.setEntries id (merged ++ vs.entries id))
    | (key, value) :: _ =>
      if vs.hasType key .merge then do
        let vs := vs.setEntries id ((vs.entries id).eraseIdx index)
        match (vs.node value).content with
        | .mapping _ =>
          let vs ← flatten fuel value vs
          flattenFrom fuel id index (merged ++ vs.entries value) vs
        | .sequence items =>
          let (parts, vs) ← flattenAll fuel items vs
          flattenFrom fuel id index (merged ++ parts.reverse.flatten) vs
        | _ => none
      else if vs.hasType key .value then
        flattenFrom fuel id (index + 1) merged
          (vs.modify key ({ · with tag := .explicit (standardTag ++ "str") }))
      else flattenFrom fuel id (index + 1) merged vs

/-- The entries of some mappings, each with what it merges. -/
def flattenAll : Nat → List Nat → Vertices → Option (List (List (Nat × Nat)) × Vertices)
  | 0, _, _ => none
  | _ + 1, [], vs => some ([], vs)
  | fuel + 1, id :: ids, vs =>
    match (vs.node id).content with
    | .mapping _ => do
      let vs ← flatten fuel id vs
      let part := vs.entries id
      let (parts, vs) ← flattenAll fuel ids vs
      return (part :: parts, vs)
    | _ => none

end

/-- How many steps merging can take at most in one line. -/
def mergeBound (vs : Vertices) : Nat :=
  let size (v : Vertex) : Nat :=
    match v.content with
    | .sequence items => items.length
    | .mapping entries => entries.length
    | _ => 0
  Nat.pow (vs.foldl (fun n v => n + size v + 1) 2) 3

/-! ## Scalars -/

/-- The scalar of a node: its own, or in a mapping that of its key `=`. -/
def scalarContent : Nat → Nat → Vertices → Option Content
  | 0, _, _ => none
  | fuel + 1, id, vs =>
    match (vs.node id).content with
    | .sequence _ => none
    | .mapping entries =>
      match entries.find? fun (key, _) => vs.hasType key .value with
      | some (_, value) => scalarContent fuel value vs
      | none => none
    | content => some content

/-- The value of a node as a scalar of a type. -/
def scalarValue (vs : Vertices) (type : ScalarType) (id : Nat) : Except ReadFault Data :=
  match scalarContent (vs.size + 1) id vs, type with
  | some (.scalar text), .timestamp =>
    match (vs.node id).content with
    | .mapping _ => .error .mappedDate
    | _ => scalarData .timestamp text
  | some (.scalar text), type => scalarData type text
  | some (.rawScalar codes), .str => .ok (.rawText codes)
  | some (.rawScalar _), .null => .ok .null
  | _, _ => .error .invalid

end Vertices

/-! ## Levels -/

/-- What is known while a document is constructed. -/
structure Construction where
  vertices : Vertices
  /-- whether a node is met -/
  met : Array Bool
  /-- the collections that are met but not constructed, the last one first -/
  pending : List Nat := []

/-- Constructing a document can fail. -/
abbrev Construct := StateT Construction (Except ReadFault)

namespace Construct

/-- Meets a node. -/
def visit (id : Nat) : Construct Unit := do
  let c ← get
  if c.met.getD id false then return ()
  set { c with met := c.met.setIfInBounds id true }
  match (c.vertices.node id).type? with
  | none => throw .invalid
  | some (.scalar type) => discard (c.vertices.scalarValue type id)
  | some (.collection _) => modify fun c => { c with pending := id :: c.pending }

/-- Meets the key of an entry, which must be a scalar, and its value. -/
def visitEntry (entry : Nat × Nat) : Construct Unit := do
  visit entry.1
  match ((← get).vertices.node entry.1).type? with
  | some (.collection _) => throw .invalid
  | _ => visit entry.2

/-- Constructs a collection. -/
def construct (id : Nat) : Construct Unit := do
  let v := (← get).vertices.node id
  match v.type?, v.content with
  | some (.collection .sequence), .sequence items => items.forM visit
  | some (.collection .pairs), .sequence items =>
    items.forM fun item => do
      match ((← get).vertices.node item).content with
      | .mapping [(key, value)] =>
        visit key
        visit value
      | _ => throw .invalid
  | some (.collection .mapping), .mapping _ | some (.collection .set), .mapping _ =>
    let vs := (← get).vertices
    let vs ← orInvalid (vs.flatten vs.mergeBound id)
    modify fun c => { c with vertices := vs }
    (vs.entries id).forM visitEntry
  | _, _ => throw .invalid

/-- Constructs the collections that are pending, then those that were met meanwhile, and so on. -/
def levels : Nat → Construct Unit
  | 0 => return ()
  | fuel + 1 => do
    let pending := (← get).pending.reverse
    if pending.isEmpty then return ()
    modify fun c => { c with pending := [] }
    pending.forM construct
    levels fuel

end Construct

/-- The nodes of a document with all that is merged, if there is no fault in it. -/
def Graph.construct (g : Graph) : Except ReadFault Vertices := do
  let start : Construction := ⟨g.vertices, Array.replicate g.vertices.size false, []⟩
  let (_, c) ← (do Construct.visit g.root; Construct.levels (g.vertices.size + 1)).run start
  return c.vertices

end TrafficKey.Yaml
