import TrafficKey.Invocation

/-!
# The shell program

The outer layer: reads extension files from disk, answers lines as they are typed, and prints.
-/

namespace TrafficKey

/-- The text of a file on disk. -/
def readPath (path : Path) : IO (Except FileFault String) := do
  try
    let text ← IO.FS.readFile path.text
    return .ok (String.ofList (unifyLineEnds text.toList))
  catch
    | .noFileOrDirectory .. => return .error .missing
    | .inappropriateType _ 20 _ => return .error .notDirectory
    | _ => return .error .isDirectory

/-- Reads files, and gives the host that knows their texts. -/
def readPaths (names : List String) : IO Host := do
  let texts ← names.mapM fun name => do
    let path := Path.ofText name
    return (path, ← readPath path)
  return { read := fun path => (texts.lookup path).getD (.error .missing) }

/-- Prints what stopped the program, if anything did, and gives the exit code. -/
def printExit (exit : Except RunFault Nat) : IO UInt32 := do
  match exit with
  | .ok code => return code.toUInt32
  | .error fault =>
    IO.eprintln fault.message
    return 1

/-- Answers lines from standard input until one of them ends the session, and gives the exit code. -/
partial def converse (s : Session) : IO UInt32 := do
  IO.print Session.prompt
  (← IO.getStdout).flush
  let line ← (← IO.getStdin).getLine
  let (s, response) := s.respond (if line.isEmpty then "EOF" else line)
  IO.print response.out
  IO.eprint response.err
  if response.ends then printExit (Invocation.exitOf true response.fault) else converse s

/-- Prints what an invocation leaves, and gives its exit code. -/
def printOutcome (o : Outcome) : IO UInt32 := do
  IO.print o.out
  IO.eprint o.err
  printExit o.exit

end TrafficKey

open TrafficKey in
/-- Runs the shell. -/
def main (words : List String) : IO UInt32 := do
  let options : Options := match Invocation.request words with
    | .run o => o
    | _ => { command := words }
  let host ← readPaths options.extensions
  match Extension.loadAll host .builtin (options.extensions.map Path.ofText), options.command with
  | .ok t, [] =>
    IO.eprint (Invocation.extensionNotes host options ++ Invocation.startNote t options)
    IO.println Session.intro
    converse (Invocation.session host t options)
  | _, _ => printOutcome (Invocation.run host words "")
