import TrafficKey.CommandLine
import TrafficKey.Extension.Load
import TrafficKey.Session

/-!
# Invocations of the shell

The shell is started with options and perhaps a command. Extension files are applied first; then the
command is carried out, or, if there is none, a session reads its input. The exit code is 2 for a wrong
command line or an extension file with a reported fault, 1 for a command that failed, and 0 otherwise. Any
other fault of an extension file and the fault of a line stop the program without an exit code of its own.
-/

namespace TrafficKey

open CommandLine

/-- The options of an invocation. -/
structure Options where
  /-- the extension files, in order -/
  extensions : List String := []
  format : Format := .debug
  verbose : Bool := false
  /-- the words of a single command; none for a session -/
  command : List String := []
deriving DecidableEq, Repr

/-- What stops an invocation. -/
inductive RunFault where
  /-- the fault of an extension file -/
  | load (fault : LoadFault)
  /-- the fault of a line -/
  | line (fault : LineFault)

/-- The wording of what stops an invocation. -/
def RunFault.message : RunFault → String
  | .load fault => fault.message
  | .line fault => fault.message

/-- What an invocation leaves: its exit code, or what stopped it, and what it printed. -/
structure Outcome where
  exit : Except RunFault Nat
  out : String := ""
  err : String := ""

namespace Invocation

/-! ## Options -/

/-- The name of the program in messages. -/
def program : String := "flowkey"

/-- Asks for the help text. -/
def helpOption : OptionSpec := ⟨["-h", "--help"], false⟩

/-- Names an extension file. -/
def extensionsOption : OptionSpec := ⟨["--extensions", "-e"], true⟩

/-- Chooses the output format. -/
def formatOption : OptionSpec := ⟨["--format", "-f"], true⟩

/-- Asks for notes on the error channel. -/
def verboseOption : OptionSpec := ⟨["--verbose", "-v"], false⟩

/-- All options. -/
def specs : List OptionSpec := [helpOption, extensionsOption, formatOption, verboseOption]

/-- How the program is called. -/
def usage : String :=
  "usage: flowkey [-h] [--extensions FILE] [--format \x7bdebug,tree,yaml,json\x7d]\n" ++
  "               [--verbose]\n" ++
  "               ...\n"

/-- The help text. -/
def helpText : String :=
  usage ++
  "\n" ++
  "Parse flow key definitions.\n" ++
  "\n" ++
  "positional arguments:\n" ++
  "  command               Run a single command (e.g. parse-key TEXT) and exit\n" ++
  "\n" ++
  "options:\n" ++
  "  -h, --help            show this help message and exit\n" ++
  "  --extensions FILE, -e FILE\n" ++
  "                        YAML file adding key names and functions (repeatable)\n" ++
  "  --format \x7bdebug,tree,yaml,json\x7d, -f \x7bdebug,tree,yaml,json\x7d\n" ++
  "                        How to print parsed definitions (default: debug)\n" ++
  "  --verbose, -v         Show detailed output\n"

/-- Why a word is not a format. -/
def notFormat (word : String) : String :=
  "invalid choice: " ++ Text.quoted word ++ " (choose from " ++
    Text.join ", " (Format.all.map fun f => Text.quoted f.label) ++ ")"

/-- Takes an option. -/
def setOption (o : Options) (spec : OptionSpec) (value : Option String) :
    Except Fault (Option Options) :=
  let word := value.getD ""
  if spec = helpOption then .ok none
  else if spec = extensionsOption then .ok (some { o with extensions := o.extensions ++ [word] })
  else if spec = verboseOption then .ok (some { o with verbose := true })
  else
    match Format.ofLabel? word with
    | some format => .ok (some { o with format })
    | none => .error (.badValue spec (notFormat word))

/-- What a command line asks for. -/
def request (words : List String) : Request Options :=
  CommandLine.request setOption (fun o words => { o with command := words }) [] {}
    (items specs true words)

/-! ## Running -/

/-- The exit code of a single command or of a session, unless a line stopped it. -/
def exitOf (ok : Bool) : Option LineFault → Except RunFault Nat
  | some fault => .error (.line fault)
  | none => .ok (if ok then 0 else 1)

/-- The note on the tables that are used. -/
def tablesNote (t : Tables) : String :=
  "Catalog: " ++ toString t.catalog.size ++ " key names; registry: " ++
    Text.join ", " t.registry.names

/-- The notes on the extension files. -/
def extensionNotes (host : Host) (o : Options) : String :=
  if o.verbose then
    String.join ((Extension.loadAllNotes host .builtin (o.extensions.map Path.ofText)).map
      (Session.noteLine "config"))
  else ""

/-- The session of an invocation that uses the given tables. -/
def session (host : Host) (t : Tables) (o : Options) : Session :=
  { tables := t, format := o.format, verbose := o.verbose, dump := host.yaml.dump }

/-- What is noted before the session starts. -/
def startNote (t : Tables) (o : Options) : String :=
  if o.verbose then Session.noteLine "shell" (tablesNote t) else ""

/-- Carries out the command of the options, or reads `input` as a session, with the given tables. -/
def runWith (host : Host) (t : Tables) (o : Options) (input : String) : Outcome :=
  if o.command.isEmpty then
    let (_, transcript) := (session host t o).run input
    { exit := exitOf true transcript.fault, out := transcript.out,
      err := startNote t o ++ transcript.err }
  else
    let (after, response) := (session host t o).respond (Text.join " " o.command)
    { exit := exitOf after.lastOk response.fault, out := response.out,
      err := startNote t o ++ response.err }

/-- Applies the extension files and goes on with the tables they make. -/
def runOptions (host : Host) (o : Options) (input : String) : Outcome :=
  let notes := extensionNotes host o
  match Extension.loadAll host .builtin (o.extensions.map Path.ofText) with
  | .ok t =>
    let outcome := runWith host t o input
    { outcome with err := notes ++ outcome.err }
  | .error fault =>
    if fault.isReported then
      { exit := .ok 2, err := notes ++ "Error: " ++ fault.message ++ "\n" }
    else { exit := .error (.load fault), err := notes }

/-- Runs the program on the words of its command line. -/
def run (host : Host) (words : List String) (input : String) : Outcome :=
  match request words with
  | .help => { exit := .ok 0, out := helpText }
  | .wrong fault => { exit := .ok 2, err := errorText program usage fault }
  | .run o => runOptions host o input

end Invocation

end TrafficKey
