import TrafficKey.CommandLine
import TrafficKey.Decimal.Read
import TrafficKey.Fuzz.Run

/-!
# Invocations of the fuzzer

The fuzzer is started with options only. It prints its seed, runs, and lists its findings; the exit code is 1
if there are any, 2 for a wrong command line, and 0 otherwise.
-/

namespace TrafficKey.Fuzz

open CommandLine

/-- The options of an invocation. -/
structure Options where
  minutes : Option Float := none
  lines : Option Int := none
  seed : Option Int := none
  timeLimit : Float := 5.0
  saveTo : Option Path := none

/-- What an invocation leaves. -/
structure Outcome where
  exit : Nat
  out : String := ""
  err : String := ""
  /-- the paths and texts of the saved files -/
  saved : List (Path × String) := []

namespace Invocation

/-! ## Options -/

/-- The name of the program in messages. -/
def program : String := "fuzz"

/-- Asks for the help text. -/
def helpOption : OptionSpec := ⟨["-h", "--help"], false⟩

/-- Limits the time. -/
def durationOption : OptionSpec := ⟨["--duration"], true⟩

/-- Limits the number of lines. -/
def iterationsOption : OptionSpec := ⟨["--iterations"], true⟩

/-- Sets the seed. -/
def seedOption : OptionSpec := ⟨["--seed"], true⟩

/-- Limits the time for a line. -/
def timeoutOption : OptionSpec := ⟨["--timeout"], true⟩

/-- Says where findings are saved. -/
def findingsOption : OptionSpec := ⟨["--findings-dir"], true⟩

/-- All options. -/
def specs : List OptionSpec :=
  [helpOption, durationOption, iterationsOption, seedOption, timeoutOption, findingsOption]

/-- How the program is called. -/
def usage : String :=
  "usage: fuzz [-h] [--duration DURATION] [--iterations ITERATIONS] [--seed SEED]\n" ++
  "            [--timeout TIMEOUT] [--findings-dir FINDINGS_DIR]\n"

/-- The help text. -/
def helpText : String :=
  usage ++
  "\n" ++
  "Fuzz the flow key parsers\n" ++
  "\n" ++
  "options:\n" ++
  "  -h, --help            show this help message and exit\n" ++
  "  --duration DURATION   Duration in minutes\n" ++
  "  --iterations ITERATIONS\n" ++
  "                        Number of inputs to try (default: 10000 unless\n" ++
  "                        --duration is set)\n" ++
  "  --seed SEED           Random seed for reproducibility\n" ++
  "  --timeout TIMEOUT     Seconds allowed per input before it counts as a hang\n" ++
  "  --findings-dir FINDINGS_DIR\n" ++
  "                        Directory to save findings to\n"

/-- The integer of an option. -/
def intValue (spec : OptionSpec) (word : String) : Except Fault Int :=
  match Decimal.readInt? word with
  | some n => .ok n
  | none => .error (.badValue spec ("invalid int value: " ++ Text.quoted word))

/-- The number of an option. -/
def floatValue (spec : OptionSpec) (word : String) : Except Fault Float :=
  match Decimal.readFloat? word with
  | some x => .ok x
  | none => .error (.badValue spec ("invalid float value: " ++ Text.quoted word))

/-- Takes an option. -/
def setOption (o : Options) (spec : OptionSpec) (value : Option String) :
    Except Fault (Option Options) :=
  let word := value.getD ""
  if spec = helpOption then .ok none
  else if spec = durationOption then do
    return some { o with minutes := some (← floatValue spec word) }
  else if spec = iterationsOption then do
    return some { o with lines := some (← intValue spec word) }
  else if spec = seedOption then do
    return some { o with seed := some (← intValue spec word) }
  else if spec = timeoutOption then do
    return some { o with timeLimit := ← floatValue spec word }
  else .ok (some { o with saveTo := some (.ofText word) })

/-- What a command line asks for. -/
def request (words : List String) : Request Options :=
  CommandLine.request setOption (fun o _ => o) [] {} (items specs false words)

/-! ## Running -/

/-- How many lines are tried if no limit is given. -/
def defaultLines : Int := 10000

/-- The limits of a run. -/
def limits (o : Options) : Limits :=
  match o.lines, o.minutes with
  | none, none => { lines := some defaultLines }
  | lines, minutes => { lines, minutes }

/-- The seed: the one that is given, or the whole seconds of the clock. -/
def seedOf (o : Options) (c : Clock) : Except Abort (Int × Clock) :=
  match o.seed with
  | some seed => .ok (seed, c)
  | none => do
    let (now, c) ← c.read
    return (now.toInt64.toInt, c)

/-- Runs the fuzzer with the given options. -/
def runOptions (o : Options) (draws : Draws) (clock : Clock) (subject : Subject)
    (timestamp : String) : Except Abort Outcome := do
  let (seed, clock) ← seedOf o clock
  if let some directory := o.saveTo then
    if let some fault := directory.makeFault? then throw (.unsaved directory fault)
  let settings : Settings := ⟨o.timeLimit, o.saveTo, true, timestamp⟩
  let fuzzer : Fuzzer := { settings, subject, out := "Random seed: " ++ toString seed ++ "\n" }
  let r ← Run.run { fuzzer, draws, clock } (limits o)
  let listing := String.join (r.fuzzer.findings.map Finding.listing)
  return {
    exit := if r.fuzzer.findings.isEmpty then 0 else 1
    out := r.fuzzer.out ++ listing
    saved := r.fuzzer.saved }

/-- Runs the program on the words of its command line. -/
def run (words : List String) (draws : Draws) (clock : Clock) (subject : Subject)
    (timestamp : String) : Except Abort Outcome :=
  match request words with
  | .help => .ok { exit := 0, out := helpText }
  | .wrong fault => .ok { exit := 2, err := errorText program usage fault }
  | .run o => runOptions o draws clock subject timestamp

end Invocation

end TrafficKey.Fuzz
