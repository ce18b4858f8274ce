import TrafficKey.Data.Basic
import TrafficKey.Tables

/-!
# Extensions of the tables

Extension data adds key names and functions to the tables. It is a mapping with at most two sections,
each a list of entries:

    key_names: a name, or a mapping with `name` and perhaps `description`
    functions: a mapping with `name`, `arity`, `args` and perhaps `trailing_labels`, `description`

The first thing that is wrong is a `ConfigFault`. Most of them are reported by a message, which may have to
show a value; a value that is nested too deep to be shown is a fault that nothing reports. Applying extension
data makes new tables and leaves the old ones as they are.

How deep a value can be shown depends on the field that it stands in and on who asks: `room` is the number of
levels that there is room for.
-/

namespace TrafficKey

/-- The place of an entry in extension data. -/
inductive EntryPlace where
  | keyName (index : Nat)
  | function (index : Nat)
  /-- a function whose name is known -/
  | declared (name : String)
deriving DecidableEq, Repr

/-- A place in words. -/
def EntryPlace.text : EntryPlace → String
  | .keyName index => "key_names[" ++ toString index ++ "]"
  | .function index => "functions[" ++ toString index ++ "]"
  | .declared name => "function " ++ Text.quoted name

/-- The fields of entries whose values are shown. -/
inductive EntryField where
  | name
  | labels
  | arity
  | args
  | description
deriving DecidableEq, Repr

/-- How many levels of a value there is room for in the shell that is started from a script. -/
def EntryField.standardRoom : EntryField → Nat
  | .name | .arity => 993
  | .labels | .description => 994
  | .args => 990

/-- What is wrong with an entry; a value that is wrong comes as it is shown. -/
inductive EntryFault where
  | notMappingOrName
  | notMapping
  | invalidName (shown : String)
  | invalidLabels (shown : String)
  | invalidArity
  | invalidCount (shown : String)
  | unknownForm (shown : String)
  | invalidArgs
  | unknownKind (shown : String)
  | invalidShape (fault : ShapeFault)
  /-- a value with a number that is too long to be shown -/
  | longNumber

/-- The wording of what is wrong with an entry. -/
def EntryFault.message : EntryFault → String
  | .notMappingOrName => "expected a mapping or a name"
  | .notMapping => "expected a mapping"
  | .invalidName shown => "invalid name " ++ shown
  | .invalidLabels shown => "trailing_labels must be true or false, got " ++ shown
  | .invalidArity => "arity must be \x7bexact: n\x7d or \x7bat_least: n\x7d"
  | .invalidCount shown => "arity count must be a positive integer, got " ++ shown
  | .unknownForm shown => "unknown arity form " ++ shown
  | .invalidArgs => "args must be a non-empty list"
  | .unknownKind shown =>
    "unknown argument kind " ++ shown ++ " (expected " ++
      Text.join ", " (ArgKind.all.map ArgKind.label) ++ ")"
  | .invalidShape fault => fault.message
  | .longNumber => Decimal.longMessage

/-- What is wrong with extension data. -/
inductive ConfigFault where
  | notMapping
  | unknownSections (names : List String)
  | keyNamesNotList
  | functionsNotList
  | entry (place : EntryPlace) (fault : EntryFault)
  | repeatedName (name : String)
  | repeatedFunction (name : String)
  /-- a value with a number that is too long to be shown -/
  | longNumber
  /-- a value that is nested too deep to be shown -/
  | tooDeep

/-- Whether a fault is reported. -/
def ConfigFault.isReported : ConfigFault → Bool
  | .tooDeep => false
  | _ => true

/-- The message for a key name that is in the catalog already. -/
def repeatedNameMessage (name : String) : String :=
  "Duplicate key name in catalog: " ++ Text.quoted name

/-- The message for a function that is in the registry already. -/
def repeatedFunctionMessage (name : String) : String :=
  "Duplicate function in registry: " ++ Text.quoted name

/-- The wording of what is wrong with extension data. -/
def ConfigFault.message : ConfigFault → String
  | .notMapping => "extension file must contain a mapping"
  | .unknownSections names => "unknown section(s): " ++ Text.join ", " names
  | .keyNamesNotList => "key_names must be a list"
  | .functionsNotList => "functions must be a list"
  | .entry place fault => place.text ++ ": " ++ fault.message
  | .repeatedName name => repeatedNameMessage name
  | .repeatedFunction name => repeatedFunctionMessage name
  | .longNumber => Decimal.longMessage
  | .tooDeep => "maximum recursion depth exceeded while getting the repr of an object"

/-- Why extension data is not applied. Section names that are no strings cannot even be listed. -/
inductive ExtensionFault where
  | config (fault : ConfigFault)
  /-- a section name at this index of the sorted list has this type -/
  | sectionType (index : Nat) (type : String)
  /-- two section names of these types cannot be ordered -/
  | sectionOrder (left right : String)

/-- The wording of an extension fault. -/
def ExtensionFault.message : ExtensionFault → String
  | .config fault => fault.message
  | .sectionType index type =>
    "sequence item " ++ toString index ++ ": expected str instance, " ++ type ++ " found"
  | .sectionOrder left right =>
    "'<' not supported between instances of '" ++ left ++ "' and '" ++ right ++ "'"

namespace Extension

/-! ## Entries -/

/-- The fault of a value that its message shows. A number that is too long to be shown is reported instead,
without the place. -/
def shown (room : Nat) (place : EntryPlace) (value : Data) (fault : String → EntryFault) : ConfigFault :=
  match value.quoted room with
  | .ok text => .entry place (fault text)
  | .error .longNumber => .longNumber
  | .error .tooDeep => .tooDeep

/-- Like `shown`, but the place is always reported. -/
def shownAt (room : Nat) (place : EntryPlace) (value : Data) (fault : String → EntryFault) : ConfigFault :=
  match value.quoted room with
  | .ok text => .entry place (fault text)
  | .error .longNumber => .entry place .longNumber
  | .error .tooDeep => .tooDeep

section

variable (room : EntryField → Nat)

/-- A name in extension data: a string that is an identifier. -/
def readName (place : EntryPlace) (value : Data) : Except ConfigFault String :=
  match value with
  | .str s => if isName s then .ok s else .error (shown (room .name) place value .invalidName)
  | _ => .error (shown (room .name) place value .invalidName)

/-- The field of an entry; a missing one counts as null. -/
def field (entries : List (Data × Data)) (name : String) : Data :=
  (Data.get? entries name).getD .null

/-- The description of an entry; `long` is the fault of one with a number that is too long. -/
def readDescription (entries : List (Data × Data)) (long : ConfigFault) : Except ConfigFault String :=
  match ((Data.get? entries "description").getD (.str "")).text (room .description) with
  | .ok text => .ok text
  | .error .longNumber => .error long
  | .error .tooDeep => .error .tooDeep

/-- One entry of the key names. -/
def readKeyName (index : Nat) (value : Data) : Except ConfigFault KeyName :=
  let place := EntryPlace.keyName index
  match value, value.entries? with
  | .str _, _ | .rawText _, _ => do return ⟨← readName room place value, ""⟩
  | _, some entries => do
    let name ← readName room place (field entries "name")
    return ⟨name, ← readDescription room entries .longNumber⟩
  | _, none => .error (.entry place .notMappingOrName)

/-- An arity: a mapping with one entry. -/
def readArity (place : EntryPlace) (value : Data) : Except ConfigFault Arity :=
  match value.entries? with
  | some [(form, count)] =>
    match count with
    | .int n =>
      if n < 1 then .error (shownAt (room .arity) place count .invalidCount)
      else
        match form with
        | .str "exact" => .ok (.exact n)
        | .str "at_least" => .ok (.atLeast n)
        | _ => .error (shownAt (room .arity) place form .unknownForm)
    | _ => .error (shownAt (room .arity) place count .invalidCount)
  | _ => .error (.entry place .invalidArity)

/-- An argument kind. -/
def readKind (place : EntryPlace) (value : Data) : Except ConfigFault ArgKind :=
  match value with
  | .str s =>
    match ArgKind.ofLabel? s with
    | some kind => .ok kind
    | none => .error (shownAt (room .args) place value .unknownKind)
  | _ => .error (shownAt (room .args) place value .unknownKind)

/-- The argument kinds of a function. -/
def readKinds (place : EntryPlace) (value : Data) : Except ConfigFault (List ArgKind) :=
  match value.items? with
  | some (item :: items) => (item :: items).mapM (readKind room place)
  | _ => .error (.entry place .invalidArgs)

/-- Whether a function has trailing labels; by default it has none. -/
def readLabels (place : EntryPlace) (entries : List (Data × Data)) : Except ConfigFault Bool :=
  match Data.get? entries "trailing_labels" with
  | none => .ok false
  | some (.bool b) => .ok b
  | some value => .error (shown (room .labels) place value .invalidLabels)

/-- One entry of the functions. -/
def readFunction (index : Nat) (value : Data) : Except ConfigFault FunctionShape :=
  match value.entries? with
  | some entries => do
    let name ← readName room (.function index) (field entries "name")
    let place := EntryPlace.declared name
    let labels ← readLabels room place entries
    let arity ← readArity room place (field entries "arity")
    let kinds ← readKinds room place (field entries "args")
    let description ← readDescription room entries (.entry place .longNumber)
    (FunctionShape.declare name arity kinds labels .plain description).mapError
      fun fault => .entry place (.invalidShape fault)
  | none => .error (.entry (.function index) .notMapping)

/-- Reads the entries of a list from `index` on. -/
def readEntries {α : Type} (read : Nat → Data → Except ConfigFault α) (index : Nat) :
    List Data → Except ConfigFault (List α)
  | [] => .ok []
  | value :: values => do
    let entry ← read index value
    let entries ← readEntries read (index + 1) values
    return entry :: entries

/-- The section of key names. -/
def readKeyNames (value : Data) : Except ConfigFault (List KeyName) :=
  match value.items? with
  | some items => readEntries (readKeyName room) 0 items
  | none => .error .keyNamesNotList

/-- The section of functions. -/
def readFunctions (value : Data) : Except ConfigFault (List FunctionShape) :=
  match value.items? with
  | some items => readEntries (readFunction room) 0 items
  | none => .error .functionsNotList

end

/-! ## Sections -/

/-- Whether a key of the data is one of the two sections. -/
def isSection : Data → Bool
  | .str s => s == "key_names" || s == "functions"
  | _ => false

/-- The string of a section name, if it is one. -/
def sectionText? : Data → Option String
  | .str s => some s
  | .rawText codes => some (Data.rawText codes).plainText
  | _ => none

/-- The class of values that a section name can be ordered among. -/
def orderClass : Data → Nat
  | .str _ | .rawText _ => 0
  | .bool _ | .int _ | .float _ => 1
  | .date _ => 2
  | .moment _ => 3
  | .bytes _ => 4
  | _ => 5

/-- The order of numbers; values that are no numbers are not ordered by it. -/
def numberLe : Data → Data → Bool
  | .float x, .float y => x ≤ y
  | .float x, d => d.number?.any fun n => x ≤ Float.ofInt n
  | d, .float y => d.number?.any fun n => Float.ofInt n ≤ y
  | a, b =>
    match a.number?, b.number? with
    | some m, some n => m ≤ n
    | _, _ => true

/-- The fault of section names of which not all are strings. -/
def sectionFault (names : List Data) : ExtensionFault :=
  match names with
  | [] => .config .notMapping
  | first :: rest =>
    match rest.find? (orderClass · ≠ orderClass first) with
    | some other => .sectionOrder other.typeName first.typeName
    | none => .sectionType 0 (((names.mergeSort numberLe).headD first).typeName)

/-- Checks that the keys of the data are sections. -/
def checkSections (entries : List (Data × Data)) : Except ExtensionFault Unit :=
  let unknown := (entries.map (·.1)).filter (!isSection ·)
  if unknown.isEmpty then .ok ()
  else
    match unknown.mapM sectionText? with
    | some names => .error (.config (.unknownSections (names.mergeSort fun a b => a ≤ b)))
    | none => .error (sectionFault unknown)

section

variable (room : EntryField → Nat)

/-- Adds the key names of the data to a catalog. -/
def addKeyNames (entries : List (Data × Data)) (catalog : Catalog) :
    Except ConfigFault Catalog :=
  match Data.get? entries "key_names" with
  | none => .ok catalog
  | some value => do
    let names ← readKeyNames room value
    (catalog.extend names).mapError .repeatedName

/-- Adds the functions of the data to a registry. -/
def addFunctions (entries : List (Data × Data)) (registry : Registry) :
    Except ConfigFault Registry :=
  match Data.get? entries "functions" with
  | none => .ok registry
  | some value => do
    let shapes ← readFunctions room value
    (registry.extend shapes).mapError .repeatedFunction

/-- Applies extension data to tables. -/
def apply (t : Tables) (data : Data) : Except ExtensionFault Tables :=
  match data.entries? with
  | some entries => do
    checkSections entries
    let catalog ← (addKeyNames room entries t.catalog).mapError .config
    let registry ← (addFunctions room entries t.registry).mapError .config
    return ⟨catalog, registry⟩
  | none => .error (.config .notMapping)

/-- Applies several extension data values in order. -/
def applyAll (t : Tables) (data : List Data) : Except ExtensionFault Tables :=
  data.foldlM (apply room) t

/-! ## Notes -/

/-- The note on entries that were added. -/
def addedNote (noun : String) (names : List String) : String :=
  "Added " ++ toString names.length ++ " " ++ noun ++ "(s): " ++ Text.join ", " names

/-- What is noted while extension data is applied: each section that was added, up to the first
failure. -/
def notes (t : Tables) (data : Data) : List String :=
  match data.entries? with
  | some entries =>
    match checkSections entries, addKeyNames room entries t.catalog with
    | .ok _, .ok catalog =>
      let named := match Data.get? entries "key_names" with
        | none => []
        | some _ => [addedNote "key name" (catalog.names.drop t.catalog.size)]
      let shaped := match Data.get? entries "functions", addFunctions room entries t.registry with
        | some _, .ok registry => [addedNote "function" (registry.names.drop t.registry.size)]
        | _, _ => []
      named ++ shaped
    | _, _ => []
  | none => []

end

end Extension

end TrafficKey
