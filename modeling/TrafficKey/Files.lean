import TrafficKey.Text.Split

/-!
# Paths and files

A path is written as parts between slashes. `Files` is what a program can read below its current
directory: texts and directories, by path. Reading a path follows its parts one after the other and fails at
the first that cannot be followed.
-/

namespace TrafficKey

/-- A path: what it starts from and its parts. Empty parts and single dots are no parts. -/
structure Path where
  /-- the slashes that an absolute path starts with; empty for a relative path -/
  root : String
  parts : List String
deriving DecidableEq, Repr

namespace Path

/-- The root of a path that starts with `n` slashes: two slashes are a root of their own. -/
def rootOf : Nat → String
  | 0 => ""
  | 2 => "//"
  | _ => "/"

/-- The path that is written as a text. -/
def ofText (s : String) : Path where
  root := rootOf (s.toList.takeWhile (· == '/')).length
  parts := (Text.split '/' s).filter fun part => part != "" && part != "."

/-- A path as a text; the path without parts is the current directory. -/
def text (p : Path) : String :=
  if p.root == "" && p.parts.isEmpty then "." else p.root ++ Text.join "/" p.parts

/-- The path that `q` is when it is taken from `p` on; an absolute path stays what it is. -/
def join (p q : Path) : Path :=
  if q.root == "" then { p with parts := p.parts ++ q.parts } else q

/-- The places that a path leads through, the last one first, each by its parts below the current directory;
`none` is outside of it. Two dots lead up. -/
def places (p : Path) : List (Option (List String)) :=
  let next (part : String) (place : List String) : Option (List String) :=
    if part != ".." then some (place ++ [part])
    else if place.isEmpty then none
    else some place.dropLast
  p.parts.foldl (fun places part => places.head?.join.bind (next part) :: places)
    [if p.root == "" then some [] else none]

/-- The parts of a path below the current directory, if it is in there. -/
def place? (p : Path) : Option (List String) :=
  p.places.head?.join

end Path

/-- Something that a path leads to. -/
inductive FileEntry where
  | directory
  | file (text : String)
deriving DecidableEq, Repr

/-- The files and directories below the current directory. -/
structure Files where
  entries : List (List String × FileEntry)

/-- Why a file cannot be read or a directory cannot be made. -/
inductive FileFault where
  | missing
  | isDirectory
  | notDirectory
  /-- a file stands where a directory should be made -/
  | isFile
  /-- a path, or a part of it, is too long -/
  | tooLong
  /-- a path holds a NUL character -/
  | nulCharacter
deriving DecidableEq, Repr

/-- The wording of a file fault. -/
def FileFault.message : FileFault → String
  | .missing => "No such file or directory"
  | .isDirectory => "Is a directory"
  | .notDirectory => "Not a directory"
  | .isFile => "File exists"
  | .tooLong => "File name too long"
  | .nulCharacter => "embedded null byte"

/-- A text with one character for each line end: a carriage return, alone or before a line feed, reads as
a line feed. -/
def unifyLineEnds : List Char → List Char
  | [] => []
  | '\r' :: '\n' :: cs => '\n' :: unifyLineEnds cs
  | c :: cs => (if c == '\r' then '\n' else c) :: unifyLineEnds cs

/-- How many bytes a part of a path can have. -/
def maxPartBytes : Nat := 255

/-- How many bytes a path can have. -/
def maxPathBytes : Nat := 4095

/-- What is wrong with a path as such, if anything. -/
def Path.fault? (p : Path) : Option FileFault :=
  if p.parts.any (·.toList.contains '\x00') then some .nulCharacter
  else if maxPathBytes < p.text.utf8ByteSize then some .tooLong
  else none

/-- The path of the null device, which can be read as a file without a text. -/
def Path.nullDevice : Path := ⟨"/", ["dev", "null"]⟩

/-- Why no directory can be made at a path, if so. The directories around it are made if they are missing. -/
def Path.makeFault? (p : Path) : Option FileFault :=
  p.fault? <|>
    if p.parts.any (maxPartBytes < ·.utf8ByteSize) then some .tooLong
    else if p.root != "" && nullDevice.parts.isPrefixOf p.parts then
      some (if p.parts == nullDevice.parts then .isFile else .notDirectory)
    else none

namespace Files

/-- The files of the given texts; a name without a text is a directory. -/
def ofList (entries : List (String × Option String)) : Files where
  entries := entries.map fun (name, text?) =>
    ((Path.ofText name).parts, match text? with
      | some text => .file text
      | none => .directory)

/-- What stands at a place: an entry, or a directory that some entry is in. -/
def entry? (f : Files) (place : List String) : Option FileEntry :=
  match f.entries.find? (·.1 == place) with
  | some (_, entry) => some entry
  | none =>
    if place.isEmpty || f.entries.any fun (parts, _) => place.isPrefixOf parts then some .directory
    else none

/-- The directories that every system has at its root. -/
def systemDirectories : List String :=
  ["bin", "dev", "etc", "home", "lib", "mnt", "opt", "proc", "run", "sbin", "srv", "sys", "tmp", "usr", "var"]

/-- What stands below the root of the system: its directories and the null device. -/
def systemEntry? (parts : List String) : Option FileEntry :=
  match parts with
  | [] => some .directory
  | [name] => if systemDirectories.contains name then some .directory else none
  | parts => if parts == Path.nullDevice.parts then some (.file "") else none

/-- Where a walk along a path has come to. -/
inductive Place where
  /-- a place below the current directory -/
  | inside (parts : List String)
  /-- a directory above the current one; nothing else is known to be in it -/
  | above
  /-- a place below the root of the system -/
  | system (parts : List String)
deriving DecidableEq, Repr

/-- What stands at a place of a walk. -/
def entryAt? (f : Files) : Place → Option FileEntry
  | .inside parts => f.entry? parts
  | .above => some .directory
  | .system parts => systemEntry? parts

/-- The place that a part leads to from a directory. Two dots lead up. -/
def follow (part : String) : Place → Option Place
  | .inside parts =>
    if part == ".." then some (if parts.isEmpty then .above else .inside parts.dropLast)
    else some (.inside (parts ++ [part]))
  | .above => if part == ".." then some .above else none
  | .system parts => some (.system (if part == ".." then parts.dropLast else parts ++ [part]))

/-- The entry that parts lead to from a place. -/
def walk (f : Files) : Place → List String → Except FileFault FileEntry
  | place, [] =>
    match f.entryAt? place with
    | some entry => .ok entry
    | none => .error .missing
  | place, part :: parts =>
    match f.entryAt? place with
    | none => .error .missing
    | some (.file _) => .error .notDirectory
    | some .directory =>
      if maxPartBytes < part.utf8ByteSize then .error .tooLong
      else
        match follow part place with
        | some next => f.walk next parts
        | none => .error .missing

/-- The text of a file, with its line ends made one. -/
def read (f : Files) (p : Path) : Except FileFault String := do
  if let some fault := p.fault? then throw fault
  match ← f.walk (if p.root == "" then .inside [] else .system []) p.parts with
  | .directory => .error .isDirectory
  | .file text => .ok (String.ofList (unifyLineEnds text.toList))

end Files

end TrafficKey
