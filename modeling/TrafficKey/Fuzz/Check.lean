import TrafficKey.Decimal.Fixed
import TrafficKey.Digest.Md5
import TrafficKey.Files
import TrafficKey.Fuzz.Subject

/-!
# Checking one line

A line is read twice by the direct parser and once by the staged one. A crash or a hang is a finding; so is a
second reading that differs from the first, a staged reading that differs from the direct one, and an accepted
definition whose text is not read as the same definition. The same kind of finding is recorded once per line.

That text is read again outside of the check's care: a crash there ends everything, and so does a finding that
cannot be saved.
-/

namespace TrafficKey.Fuzz

/-- What is wrong with the parsers. -/
inductive Category where
  | crash
  | timeout
  | nondeterministic
  | disagreement
  | roundtrip
  /-- something noted under a label of its own -/
  | noted (label : String)
deriving DecidableEq, Repr

/-- The word for a category. -/
def Category.label : Category → String
  | .crash => "crash"
  | .timeout => "timeout"
  | .nondeterministic => "nondeterministic"
  | .disagreement => "disagreement"
  | .roundtrip => "roundtrip"
  | .noted label => label

/-- A line that shows something wrong. -/
structure Finding where
  category : Category
  input : String
  detail : String
deriving DecidableEq, Repr

namespace Finding

/-- The detail in one line. -/
def summary (f : Finding) : String :=
  Text.firstLine f.detail

/-- The name of the file that a finding is saved in. -/
def fileName (f : Finding) (timestamp : String) : String :=
  f.category.label ++ "_" ++ timestamp ++ "_" ++ Digest.fingerprint f.input ++ ".txt"

/-- The text of the file that a finding is saved in. -/
def fileText (f : Finding) (timestamp : String) : String :=
  "Category: " ++ f.category.label ++ "\n" ++
  "Detail: " ++ f.detail ++ "\n" ++
  "Timestamp: " ++ timestamp ++ "\n" ++
  "Input length: " ++ toString f.input.length ++ "\n" ++
  "\n--- Input ---\n" ++ f.input ++ "\n"

/-- A finding as the list of all findings shows it. -/
def listing (f : Finding) : String :=
  f.category.label ++ ": " ++ Text.quoted f.input ++ "\n    " ++ f.summary ++ "\n"

end Finding

/-- How a fuzzer works. -/
structure Settings where
  /-- how many seconds a line may take -/
  timeLimit : Float := 5.0
  /-- where findings are saved -/
  saveTo : Option Path := none
  verbose : Bool := false
  /-- the time that saved findings carry -/
  timestamp : String := ""

/-- A fuzzer: what it has found, counted and printed so far. -/
structure Fuzzer where
  settings : Settings := {}
  subject : Subject := {}
  findings : List Finding := []
  /-- the kinds of findings and fingerprints of lines that are recorded -/
  seen : List (Category × String) := []
  iterations : Nat := 0
  accepted : Nat := 0
  rejected : Nat := 0
  /-- the paths and texts of the saved files -/
  saved : List (Path × String) := []
  out : String := ""

/-- What ends everything without a result. -/
inductive Abort where
  | interrupted
  | crashed (crash : Crash)
  /-- a parser does not come back where no time limit is set -/
  | hung
  | unsaved (path : Path) (fault : FileFault)
deriving DecidableEq, Repr

namespace Fuzzer

/-- Prints a text. -/
def print (f : Fuzzer) (text : String) : Fuzzer :=
  { f with out := f.out ++ text }

/-- Why a file cannot be made in a directory, which is there with all that its path leads through. -/
def saveFault? (directory file : Path) : Option FileFault :=
  match file.makeFault? with
  | some fault => some fault
  | none =>
    let folders := file.places.tail
    if folders.all fun place => place.isNone || directory.places.contains place then none
    else some .missing

/-- Saves a finding, if findings are saved. -/
def save (f : Fuzzer) (finding : Finding) : Except Abort Fuzzer :=
  match f.settings.saveTo with
  | none => .ok f
  | some directory =>
    let file := directory.join (.ofText (finding.fileName f.settings.timestamp))
    match saveFault? directory file with
    | some fault => .error (.unsaved file fault)
    | none =>
      let f := { f with saved := f.saved ++ [(file, finding.fileText f.settings.timestamp)] }
      .ok (if f.settings.verbose then f.print ("[!] Saved finding: " ++ file.text ++ "\n") else f)

/-- Records a finding, unless one of its category is recorded for its line. -/
def record (f : Fuzzer) (finding : Finding) : Except Abort Fuzzer :=
  let mark := (finding.category, Digest.fingerprint finding.input)
  if f.seen.contains mark then .ok f
  else { f with findings := f.findings ++ [finding], seen := mark :: f.seen }.save finding

/-- Records a finding if there is one. -/
def recordIf (f : Fuzzer) (found : Bool) (finding : Finding) : Except Abort Fuzzer :=
  if found then f.record finding else .ok f

/-- Calls the direct parser. -/
def callDirect (f : Fuzzer) (line : String) : Attempt × Fuzzer :=
  let (attempt, subject) := f.subject.callDirect line
  (attempt, { f with subject })

/-- Calls the staged parser. -/
def callStaged (f : Fuzzer) (line : String) : Attempt × Fuzzer :=
  let (attempt, subject) := f.subject.callStaged line
  (attempt, { f with subject })

/-- The detail of a line that takes too long. -/
def timeoutDetail (seconds : Float) : String :=
  "no result after " ++ Decimal.roundedText seconds ++ "s"

/-- Why a time limit cannot be set. Times are counted in nanoseconds, and a limit is rounded up to whole
microseconds, so a negative limit of less than one is none. -/
def limitFault? (seconds : Float) : Option Crash :=
  let nanoseconds := seconds * 1000000000.0
  if seconds.isNaN then some ⟨"ValueError", "Invalid value NaN (not a number)"⟩
  else if !(-9223372036854775808.0 ≤ nanoseconds && nanoseconds < 9223372036854775808.0) then
    some ⟨"OverflowError", "timestamp too large to convert to C _PyTime_t"⟩
  else if nanoseconds ≤ -1000.0 then some ⟨"itimer_error", "[Errno 22] Invalid argument"⟩
  else none

/-- The finding of a crash on a line. The trace that belongs to it is not kept. -/
def crashOn (line : String) (crash : Crash) : Finding :=
  ⟨.crash, line, crash.text ++ "\n..."⟩

/-- What a check comes to: whether it showed something wrong, and the fuzzer after it. -/
abbrev Checked := Except Abort (Bool × Fuzzer)

/-- Records a finding, which is what the check shows. -/
def report (f : Fuzzer) (finding : Finding) : Checked :=
  (true, ·) <$> f.record finding

/-- Goes on with the verdict of a call. A crash or a hang is recorded and ends the check of the line. -/
def withVerdict (line : String) (call : Attempt × Fuzzer) (next : Verdict → Fuzzer → Checked) : Checked :=
  let (attempt, f) := call
  match attempt with
  | .verdict v => next v f
  | .crashed crash => f.report (crashOn line crash)
  | .hung => f.report ⟨.timeout, line, timeoutDetail f.settings.timeLimit⟩

/-- Compares the three verdicts on a line. -/
def compare (f : Fuzzer) (line : String) (first second staged : Verdict) : Except Abort Fuzzer := do
  let f ← f.recordIf (!first.same second)
    ⟨.nondeterministic, line, first.debugText ++ " != " ++ second.debugText⟩
  f.recordIf (!first.same staged)
    ⟨.disagreement, line, "hand-written " ++ first.debugText ++ ", Lark " ++ staged.debugText⟩

/-- Counts a line; the text of an accepted definition is read again and compared. -/
def count (f : Fuzzer) (line : String) (first : Verdict) : Except Abort Fuzzer :=
  match first with
  | .rejected _ _ => .ok { f with rejected := f.rejected + 1 }
  | .accepted d =>
    match { f with accepted := f.accepted + 1 }.callDirect d.text with
    | (.verdict again, f) =>
      f.recordIf (!again.same first)
        ⟨.roundtrip, line, Text.quoted d.text ++ " reparsed as " ++ again.debugText⟩
    | (.crashed crash, _) => .error (.crashed crash)
    | (.hung, _) => .error .hung

/-- Checks a line, and says whether it showed something wrong. -/
def check (f : Fuzzer) (line : String) : Checked :=
  match limitFault? f.settings.timeLimit with
  | some crash => f.report (crashOn line crash)
  | none =>
    let before := f.findings.length
    withVerdict line (f.callDirect line) fun first f =>
      withVerdict line (f.callDirect line) fun second f =>
        withVerdict line (f.callStaged line) fun staged f => do
          let f ← f.compare line first second staged
          let f ← f.count line first
          return (before < f.findings.length, f)

end Fuzzer

end TrafficKey.Fuzz
