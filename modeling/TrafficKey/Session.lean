import TrafficKey.Format
import TrafficKey.Parse.Direct
import TrafficKey.Text.Split
import TrafficKey.Yaml.Library

/-!
# Sessions

A session answers command lines one after the other. A line is read as a `Command`; the answer is what it
prints on each of the two channels, and whether it ends the session. A session remembers only whether the
last command that could fail succeeded.

A definition is printed in the format of a word, and its warnings take the labels of its group calls. If
there is no such format, or a group call has an argument that is no label, the line has a fault, which ends
the session. So has a line that is wrong in a way that cannot be worded.

`Session.run` reads a whole script with prompts; the end of a script acts as a last line `EOF`.
-/

namespace TrafficKey

/-- A line of a session, read. -/
inductive Command where
  /-- a line without a command -/
  | blank
  /-- parse the text and print its definition -/
  | parseKey (text : String)
  /-- end the session -/
  | leave
  /-- the end of the input: end the session on a new line -/
  | endOfInput
  /-- explain a topic, or list all commands if it is empty -/
  | help (topic : String)
  /-- a line whose first word is no command -/
  | unknown (word : String)
deriving DecidableEq, Repr

namespace Command

/-- The line with its first word `parse-key` written as `parse_key`, since a dash ends the name of a
command. -/
def canonicalLine (line : String) : String :=
  match Text.firstWord? line with
  | some ("parse-key", rest) => "parse_key " ++ rest
  | _ => line

/-- The first word of a line. -/
def firstWord (cs : List Char) : String :=
  String.ofList ((Text.trimLeft cs).takeWhile (!Text.isBlank ·))

/-- The command of a trimmed line that starts with its name. -/
def ofWords (cs : List Char) : Command :=
  let argument := String.ofList (Text.trim (cs.dropWhile isNameChar))
  match String.ofList (cs.takeWhile isNameChar) with
  | "parse_key" => .parseKey argument
  | "quit" | "exit" => .leave
  | "EOF" => .endOfInput
  | "help" => .help argument
  | _ => .unknown (firstWord cs)

/-- The command of a trimmed line; a question mark asks for help. -/
def ofTrimmed : List Char → Command
  | [] => .blank
  | '?' :: cs => .help (String.ofList (Text.trim cs))
  | cs => ofWords cs

/-- The command of a line. -/
def ofLine (line : String) : Command :=
  ofTrimmed (Text.trim (canonicalLine line).toList)

end Command

/-- Why a line has no answer. -/
inductive LineFault where
  /-- the definition that was read cannot be shown -/
  | unshown (fault : NodeFault)
  /-- a number of the diagnostic is too long to be written -/
  | longNumber
deriving DecidableEq, Repr

/-- The wording of the fault of a line. -/
def LineFault.message : LineFault → String
  | .unshown fault => fault.message
  | .longNumber => Decimal.longMessage

/-- What a session prints for a line. -/
structure Response where
  out : String := ""
  err : String := ""
  stop : Bool := false
  fault : Option LineFault := none
deriving DecidableEq, Repr

/-- Whether no further line is read. -/
def Response.ends (r : Response) : Bool :=
  r.stop || r.fault.isSome

/-- A session. -/
structure Session where
  tables : Tables
  /-- the word for the output format -/
  format : String := Format.debug
  /-- whether rejected lines are noted in detail -/
  verbose : Bool := false
  /-- writes values as YAML -/
  dump : Data → String := Yaml.library.dump
  /-- whether the last command that could fail succeeded -/
  lastOk : Bool := true

namespace Session

/-- What a session prints when it starts. -/
def intro : String := "Flow key definition shell. Type 'help' for commands, 'quit' to exit."

/-- What a session prints before it reads a line. -/
def prompt : String := "flowkey> "

/-- A note for the error channel; `source` says which part of the program makes it. -/
def noteLine (source message : String) : String :=
  "DEBUG flowkey." ++ source ++ ": " ++ message ++ "\n"

/-- A heading with a line under it. -/
def heading (title : String) : String :=
  title ++ "\n" ++ String.ofList (List.replicate title.length '=') ++ "\n"

/-- The list of all commands. -/
def commandList : String :=
  "\n" ++ heading "Documented commands (type help <topic>):" ++ "exit  help  parse_key  quit\n" ++
    "\n" ++ heading "Undocumented commands:" ++ "EOF\n" ++ "\n"

/-- Names in the order of their characters. -/
def sortedNames (names : List String) : String :=
  Text.join ", " (names.mergeSort fun a b => a ≤ b)

/-- What is printed on a topic. -/
def helpText (t : Tables) (topic : String) : String :=
  match topic with
  | "" => commandList
  | "parse_key" =>
    "parse-key <text>: parse a flow key definition and print its AST.\n" ++
      "Known key functions: " ++ sortedNames t.registry.names ++ "\n" ++
      "Known key names: " ++ sortedNames t.catalog.names ++ "\n"
  | "quit" | "exit" => "quit: leave the shell.\n"
  | "help" => "List available commands with \"help\" or detailed help with \"help cmd\".\n"
  | topic => "*** No help on " ++ topic ++ "\n"

/-- The note on a rejected text. -/
def rejectionNote (text : String) (report : Report) : String :=
  noteLine "shell" ("Rejected " ++ Text.quoted text ++ ": " ++ report.debugText)

/-- The lines on the error channel for an accepted definition. -/
def warningLines (ws : List Warning) : String :=
  String.join (ws.map fun w => "warning: " ++ w.text ++ "\n")

/-- Prints a definition, and then its warnings. -/
def showDefinition (s : Session) (d : Definition) : Session × Response :=
  match Format.ofLabel? s.format with
  | none => (s, { fault := some (.unshown (.unknownFormat s.format)) })
  | some format =>
    let out := d.render s.dump format ++ "\n"
    match d.toNode.warnings with
    | .ok ws => ({ s with lastOk := true }, { out, err := warningLines ws })
    | .error fault => (s, { out, fault := some (.unshown fault) })

/-- Prints why a text is no definition. -/
def showDiagnostic (s : Session) (text : String) (d : Diagnostic) : Session × Response :=
  match d.report? with
  | none => (s, { fault := some .longNumber })
  | some report =>
    ({ s with lastOk := false },
     { err := (if s.verbose then rejectionNote text report else "") ++ report.line ++ "\n" })

/-- Parses a text and prints its definition, or why it is none. -/
def parseKey (s : Session) (text : String) : Session × Response :=
  match Direct.parse s.tables text with
  | .ok d => s.showDefinition d
  | .error d => s.showDiagnostic text d

/-- Carries out a command. -/
def execute (s : Session) : Command → Session × Response
  | .blank => (s, {})
  | .parseKey text => s.parseKey text
  | .leave => (s, { stop := true })
  | .endOfInput => (s, { out := "\n", stop := true })
  | .help topic => (s, { out := helpText s.tables topic })
  | .unknown word =>
    ({ s with lastOk := false },
     { err := "Unknown command: " ++ word ++ ". Type 'help' for commands.\n" })

/-- Answers a line. -/
def respond (s : Session) (line : String) : Session × Response :=
  s.execute (.ofLine line)

/-! ## Scripts -/

/-- What a session has printed so far, and the fault that ended it. -/
structure Transcript where
  out : String := ""
  err : String := ""
  fault : Option LineFault := none
deriving DecidableEq, Repr

/-- The transcript with a prompt and the response to it. -/
def Transcript.add (t : Transcript) (r : Response) : Transcript :=
  ⟨t.out ++ prompt ++ r.out, t.err ++ r.err, r.fault⟩

/-- Answers lines until one of them ends the session; after the last line the input ends. -/
def loop (s : Session) (t : Transcript) : List String → Session × Transcript
  | [] =>
    let (s, r) := s.respond "EOF"
    (s, t.add r)
  | line :: lines =>
    let (s, r) := s.respond line
    if r.ends then (s, t.add r) else s.loop (t.add r) lines

/-- The lines of a script; a line break at its end starts no line. -/
def scriptLines (script : String) : List String :=
  let lines := Text.split '\n' script
  if lines.getLast? == some "" then lines.dropLast else lines

/-- Reads a script from the start of a session on. -/
def run (s : Session) (script : String) : Session × Transcript :=
  s.loop { out := intro ++ "\n" } (scriptLines script)

end Session

end TrafficKey
