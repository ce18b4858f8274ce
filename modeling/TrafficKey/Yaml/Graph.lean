import TrafficKey.Yaml.Token

/-!
# The graph of a YAML document

The tokens of a text form a single document or none. Its nodes are scalars, sequences and mappings, each with
its tag. They are numbered, and an alias is the number of the node that it names. Since a node has its name
before its content is read, it can be part of itself.
-/

namespace TrafficKey.Yaml

/-- The tag of a node: given by the text, or to be found from the content. -/
inductive Tag where
  /-- found from the text of a scalar as if it were plain, or from the kind of collection -/
  | implicit
  /-- a quoted scalar without a tag -/
  | quoted
  | explicit (name : String)
deriving DecidableEq, Repr

/-- The content of a node; the parts of a collection are numbers of nodes. -/
inductive Content where
  | scalar (text : String)
  /-- a scalar with codes that are no characters -/
  | rawScalar (codes : List Nat)
  | sequence (items : List Nat)
  | mapping (entries : List (Nat × Nat))
deriving Repr

/-- A node of a document. -/
structure Vertex where
  tag : Tag
  content : Content
deriving Repr

/-- A document: its nodes by number, the number of its root, and the order in which the nodes are complete. -/
structure Graph where
  vertices : Array Vertex
  root : Nat
  completed : List Nat
  /-- whether an alias names a node that it is part of -/
  knotted : Bool

/-- What is left to read of a document, with the nodes, anchors and tag handles so far. -/
structure Builder where
  tokens : List Token
  vertices : Array Vertex := #[]
  /-- the numbers of the nodes that are complete, the last one first -/
  completed : List Nat := []
  knotted : Bool := false
  anchors : List (String × Nat) := []
  handles : List (String × String) := []

/-- Building a graph can fail. -/
abbrev Build := StateT Builder (Except ReadFault)

namespace Build

/-- A document that is not YAML. -/
def invalid {α : Type} : Build α :=
  throw .invalid

/-- The next token; what is wrong with the text is met when it is looked at. -/
def peek : Build Token := do
  match (← get).tokens.headD .streamEnd with
  | .fault f => throw f
  | token => return token

/-- Passes over the next token. -/
def advance : Build Unit :=
  modify fun b => { b with tokens := b.tokens.tail }

/-- Passes over the next token if it is `t`. -/
def accept (t : Token) : Build Bool := do
  if (← peek) = t then
    advance
    return true
  else return false

/-- The next token must be `t`. -/
def expect (t : Token) : Build Unit := do
  if ← accept t then return () else invalid

/-- Whether the next token is one of those given. -/
def isNext (ts : List Token) : Build Bool := do
  return ts.contains (← peek)

/-- An anchor, if there is one. -/
def anchor? : Build (Option String) := do
  match ← peek with
  | .anchor name =>
    advance
    return some name
  | _ => return none

/-- The full name of a tag. -/
def expandTag (handle : Option String) (suffix : String) : Build String := do
  match handle with
  | none => return suffix
  | some handle =>
    match (← get).handles.find? (·.1 == handle) with
    | some (_, expansion) => return expansion ++ suffix
    | none => invalid

/-- A tag as it is written, if there is one. -/
def tag? : Build (Option (Option String × String)) := do
  match ← peek with
  | .tag handle suffix =>
    advance
    return some (handle, suffix)
  | _ => return none

/-- The properties of a node: an anchor and a tag in any order. -/
def properties : Build (Option String × Option String) := do
  let (anchor, tag) ←
    match ← anchor? with
    | some name => pure (some name, ← tag?)
    | none =>
      let tag ← tag?
      pure (← anchor?, tag)
  match tag with
  | none => return (anchor, none)
  | some (handle, suffix) => return (anchor, some (← expandTag handle suffix))

/-- Numbers a new node, of which only the tag is known. -/
def reserve (tag : Tag) : Build Nat := do
  let id := (← get).vertices.size
  modify fun b => { b with vertices := b.vertices.push ⟨tag, .scalar ""⟩ }
  return id

/-- Completes a node. -/
def complete (id : Nat) (content : Content) : Build Unit :=
  modify fun b => { b with
    vertices := b.vertices.modify id ({ · with content })
    completed := id :: b.completed }

/-- A new node. -/
def add (tag : Tag) (content : Content) : Build Nat := do
  let id ← reserve tag
  complete id content
  return id

/-- The node that stands for a missing one. -/
def missing : Build Nat :=
  add .implicit (.scalar "")

/-- Gives a node a name, which must be new. -/
def define (name : Option String) (id : Nat) : Build Unit := do
  match name with
  | none => return ()
  | some name =>
    if (← get).anchors.any (·.1 == name) then invalid
    modify fun b => { b with anchors := (name, id) :: b.anchors }

/-- The node of a name. -/
def lookup (name : String) : Build Nat := do
  match (← get).anchors.find? (·.1 == name) with
  | none => invalid
  | some (_, id) =>
    modify fun b => { b with knotted := b.knotted || !b.completed.contains id }
    return id

/-- The tag of a collection. -/
def collectionTag : Option String → Tag
  | none => .implicit
  | some "!" => .implicit
  | some name => .explicit name

/-- The tag of a scalar. -/
def scalarTag (plain : Bool) : Option String → Tag
  | none => if plain then .implicit else .quoted
  | some "!" => .implicit
  | some name => .explicit name

/-- A scalar with its properties. -/
def scalarNode (anchor : Option String) (tag : Tag) (content : Content) : Build Nat := do
  let id ← reserve tag
  define anchor id
  complete id content
  return id

/-- A collection with its properties. Its name is known in its content. -/
def collection (anchor tag : Option String) (content : Build Content) : Build Nat := do
  let id ← reserve (collectionTag tag)
  define anchor id
  complete id (← content)
  return id

mutual

/-- A node. Only inside a block may it be a block itself, and only as part of a mapping a sequence that is
not indented. -/
def node (block indentless : Bool) : Nat → Build Nat
  | 0 => invalid
  | fuel + 1 => do
    match ← peek with
    | .alias name =>
      advance
      lookup name
    | _ =>
      let (anchor, tag) ← properties
      match ← peek, block, indentless with
      | .blockEntry, _, true => collection anchor tag (.sequence <$> looseItems fuel)
      | .scalar text plain, _, _ =>
        advance
        scalarNode anchor (scalarTag plain tag) (.scalar text)
      | .rawScalar codes, _, _ =>
        advance
        scalarNode anchor (scalarTag false tag) (.rawScalar codes)
      | .flowSequenceStart, _, _ =>
        collection anchor tag (do advance; .sequence <$> flowItems true fuel)
      | .flowMappingStart, _, _ =>
        collection anchor tag (do advance; .mapping <$> flowEntries true fuel)
      | .blockSequenceStart, true, _ =>
        collection anchor tag (do advance; .sequence <$> blockItems fuel)
      | .blockMappingStart, true, _ =>
        collection anchor tag (do advance; .mapping <$> blockEntries fuel)
      | _, _, _ =>
        if anchor.isSome || tag.isSome then scalarNode anchor (scalarTag true tag) (.scalar "")
        else invalid

/-- A node, or the missing one if one of the given tokens is next. -/
def nodeUnless (ends : List Token) (block indentless : Bool) : Nat → Build Nat
  | 0 => invalid
  | fuel + 1 => do
    if ← isNext ends then missing else node block indentless fuel

/-- The items of an indented sequence. -/
def blockItems : Nat → Build (List Nat)
  | 0 => invalid
  | fuel + 1 => do
    if ← accept .blockEntry then
      let item ← nodeUnless [.blockEntry, .blockEnd] true false fuel
      return item :: (← blockItems fuel)
    else
      expect .blockEnd
      return []

/-- The items of a sequence that is not indented. -/
def looseItems : Nat → Build (List Nat)
  | 0 => invalid
  | fuel + 1 => do
    if ← accept .blockEntry then
      let item ← nodeUnless [.blockEntry, .key, .value, .blockEnd] true false fuel
      return item :: (← looseItems fuel)
    else return []

/-- The entries of a block mapping. -/
def blockEntries : Nat → Build (List (Nat × Nat))
  | 0 => invalid
  | fuel + 1 => do
    let ends : List Token := [.key, .value, .blockEnd]
    if ← accept .key then
      let key ← nodeUnless ends true true fuel
      let value ← if ← accept .value then nodeUnless ends true true fuel else missing
      return (key, value) :: (← blockEntries fuel)
    else
      expect .blockEnd
      return []

/-- The items of a sequence in brackets; an item with a key is a mapping with one entry. -/
def flowItems (first : Bool) : Nat → Build (List Nat)
  | 0 => invalid
  | fuel + 1 => do
    if ← accept .flowSequenceEnd then return []
    else
      if !first then expect .flowEntry
      if ← accept .key then
        let id ← reserve .implicit
        let key ← nodeUnless [.value, .flowEntry, .flowSequenceEnd] false false fuel
        let value ← if ← accept .value then nodeUnless [.flowEntry, .flowSequenceEnd] false false fuel
          else missing
        complete id (.mapping [(key, value)])
        return id :: (← flowItems false fuel)
      else if ← accept .flowSequenceEnd then return []
      else
        let item ← node false false fuel
        return item :: (← flowItems false fuel)

/-- The entries of a mapping in braces. -/
def flowEntries (first : Bool) : Nat → Build (List (Nat × Nat))
  | 0 => invalid
  | fuel + 1 => do
    if ← accept .flowMappingEnd then return []
    else
      if !first then expect .flowEntry
      if ← accept .key then
        let key ← nodeUnless [.value, .flowEntry, .flowMappingEnd] false false fuel
        let value ← if ← accept .value then nodeUnless [.flowEntry, .flowMappingEnd] false false fuel
          else missing
        return (key, value) :: (← flowEntries false fuel)
      else if ← accept .flowMappingEnd then return []
      else
        let key ← node false false fuel
        return (key, ← missing) :: (← flowEntries false fuel)

end

/-- The directives of a document: at most one version, which must be 1, and tag handles. -/
def directives : Nat → Bool → List (String × String) → Build (List (String × String))
  | 0, _, _ => invalid
  | fuel + 1, versioned, handles => do
    match ← peek with
    | .yamlDirective major =>
      if versioned || major != 1 then invalid
      advance
      directives fuel true handles
    | .tagDirective handle expansion =>
      if handles.any (·.1 == handle) then invalid
      advance
      directives fuel versioned (handles ++ [(handle, expansion)])
    | .otherDirective =>
      advance
      directives fuel versioned handles
    | _ => return handles

/-- The tag handles that are always there. -/
def defaultHandles : List (String × String) := [("!", "!"), ("!!", "tag:yaml.org,2002:")]

/-- Passes over document ends. -/
def skipEnds : Nat → Build Unit
  | 0 => return ()
  | fuel + 1 => do
    if ← accept .documentEnd then skipEnds fuel else return ()

/-- The rest of a document after its start: its root, and the end of the text. -/
def body (root : Build Nat) (fuel : Nat) : Build (Option Nat) := do
  let id ← root
  skipEnds fuel
  expect .streamEnd
  return some id

/-- The root of the document of a text; `none` is a text without a document. A second document is an
error. -/
def document (fuel : Nat) : Build (Option Nat) := do
  match ← peek with
  | .streamEnd => return none
  | .yamlDirective _ | .tagDirective _ _ | .otherDirective | .documentStart =>
    let handles ← directives fuel false []
    modify fun b => { b with handles := handles ++ defaultHandles }
    expect .documentStart
    match ← peek with
    | .yamlDirective _ | .tagDirective _ _ | .otherDirective | .documentStart | .documentEnd | .streamEnd =>
      body missing fuel
    | _ => body (node true false fuel) fuel
  | _ =>
    modify fun b => { b with handles := defaultHandles }
    body (node true false fuel) fuel

end Build

/-- The graph of a token list; `none` is a text without a document. -/
def Graph.ofTokens (tokens : List Token) : Except ReadFault (Option Graph) := do
  let (root, b) ← (Build.document (3 * tokens.length + 8)).run { tokens }
  return root.map fun root => ⟨b.vertices, root, b.completed.reverse, b.knotted⟩

end TrafficKey.Yaml
