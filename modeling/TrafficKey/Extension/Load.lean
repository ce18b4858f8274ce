import TrafficKey.Extension
import TrafficKey.Files
import TrafficKey.Yaml.Library

/-!
# Extension files

An extension file holds extension data as YAML; an empty file adds nothing. Files are applied one after the
other, each to the tables that the files before it made. What goes wrong is a `LoadFault`, which names the
file. Everything here is relative to a `Host`, which gives the texts of files and reads YAML.
-/

namespace TrafficKey

/-- What the program is run on. -/
structure Host where
  /-- the text of a file -/
  read : Path → Except FileFault String
  yaml : Yaml.Library := Yaml.library
  /-- how many levels of a value can be shown -/
  room : EntryField → Nat := EntryField.standardRoom

/-- Why extension files are not applied. -/
inductive LoadFault where
  | file (path : Path) (fault : FileFault)
  | notYaml (path : Path)
  /-- a value in the file that is none of its type -/
  | badValue (fault : Yaml.ReadFault)
  | data (path : Path) (fault : ExtensionFault)

namespace LoadFault

/-- The wording of a load fault. -/
def message : LoadFault → String
  | .file _ .nulCharacter => FileFault.nulCharacter.message
  | .file path fault => path.text ++ ": " ++ fault.message
  | .notYaml path => path.text ++ ": invalid YAML"
  | .badValue fault => fault.message
  | .data path (.config fault) =>
    if fault.isReported then path.text ++ ": " ++ fault.message else fault.message
  | .data _ fault => fault.message

/-- Whether the fault is one of the file, which is reported. All others stop the program. -/
def isReported : LoadFault → Bool
  | .badValue _ | .file _ .nulCharacter => false
  | .data _ (.sectionType _ _) | .data _ (.sectionOrder _ _) => false
  | .data _ (.config fault) => fault.isReported
  | .file _ _ | .notYaml _ => true

end LoadFault

namespace Extension

variable (host : Host)

/-- The extension data of a file. -/
def readFile (path : Path) : Except LoadFault Data := do
  let text ← (host.read path).mapError (.file path)
  let data ← (host.yaml.load text).mapError fun
    | .invalid => .notYaml path
    | fault => .badValue fault
  return match data with
    | .null => .map []
    | data => data

/-- Applies an extension file to tables. -/
def load (t : Tables) (path : Path) : Except LoadFault Tables := do
  let data ← readFile host path
  (apply host.room t data).mapError (.data path)

/-- Applies extension files in order. -/
def loadAll (t : Tables) (paths : List Path) : Except LoadFault Tables :=
  paths.foldlM (load host) t

/-- What is noted while an extension file is applied. -/
def loadNotes (t : Tables) (path : Path) : List String :=
  match readFile host path with
  | .ok data => ("Loading extensions from " ++ path.text) :: notes host.room t data
  | .error _ => []

/-- What is noted while extension files are applied, up to the first that fails. -/
def loadAllNotes : Tables → List Path → List String
  | _, [] => []
  | t, path :: paths =>
    loadNotes host t path ++
      match load host t path with
      | .ok t => loadAllNotes t paths
      | .error _ => []

end Extension

end TrafficKey
