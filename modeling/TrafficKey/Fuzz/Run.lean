import TrafficKey.Fuzz.Check
import TrafficKey.Fuzz.Mutation

/-!
# Runs of the fuzzer

A run tries one line after the other until the count of lines or the time is used up, or until it is
interrupted. A line is generated, is mutated from a line of the corpus, or is taken from it. The corpus starts
with the seeds and grows by lines that showed something and, now and then, by others; beyond its limit a line
that is no seed is removed.

The clock is a value: it says what each reading gives and which reading is the interruption. An interruption
before or after the loop ends everything.
-/

namespace TrafficKey.Fuzz

/-- A clock that moves on by a step with each reading. -/
structure Clock where
  now : Float := 1000.0
  step : Float := 0.0
  /-- how often it was read -/
  reads : Nat := 0
  /-- the reading that is an interruption, counted from 1 -/
  interruptAt : Option Nat := none

/-- The clock after a reading that was the interruption. -/
def Clock.interrupted (c : Clock) : Clock :=
  { c with reads := c.reads + 1 }

/-- Reads the clock. -/
def Clock.read (c : Clock) : Except Abort (Float × Clock) :=
  if c.interruptAt = some (c.reads + 1) then .error .interrupted
  else .ok (c.now, { c with reads := c.reads + 1, now := c.now + c.step })

/-- The lines that new lines are made from. There is always one to choose. -/
abbrev Corpus := { lines : List String // lines ≠ [] }

/-- The corpus of a run that starts. -/
def Corpus.seeds : Corpus := ⟨seedCorpus, by decide⟩

/-- A run of a fuzzer. -/
structure Run where
  fuzzer : Fuzzer := {}
  draws : Draws
  clock : Clock := {}
  corpus : Corpus := .seeds
  /-- the lines that were tried, the last one first -/
  tried : List String := []
  /-- when the run started -/
  started : Float := 0.0

/-- When a run ends. -/
structure Limits where
  /-- after so many lines -/
  lines : Option Int := none
  /-- after so many minutes; zero is no limit -/
  minutes : Option Float := none

namespace Run

/-- How many lines the corpus holds at most. -/
def corpusLimit : Nat := 500

/-- The next line to try. -/
def nextLine (corpus : Corpus) : Gen String := do
  let strategy ← Gen.thousandth
  if strategy.val < 300 then line
  else if strategy.val < 800 then
    let start ← Gen.choose corpus.val corpus.property
    let mutated ← mutate start
    let more ← Gen.between 0 3
    mutateTimes more mutated
  else Gen.choose corpus.val corpus.property

/-- Beyond the limit, something is left when a line is removed. -/
theorem eraseIdx_ne_nil {lines : List String} (h : corpusLimit < lines.length) (i : Nat) :
    lines.eraseIdx i ≠ [] := by
  intro hnil
  have hle := List.le_length_eraseIdx lines i
  rw [hnil, List.length_nil] at hle
  unfold corpusLimit at h
  omega

/-- Adds a line to the corpus; beyond the limit a line behind the seeds is removed. -/
def grow (corpus : Corpus) (s : String) : Gen Corpus := do
  let lines := corpus.val ++ [s]
  if h : corpusLimit < lines.length then
    let i ← Gen.between seedCorpus.length (lines.length - 1)
    return ⟨lines.eraseIdx i, eraseIdx_ne_nil h i⟩
  else return ⟨lines, by simp [lines]⟩

/-- What the corpus has grown to after a line: the line is added if it showed something, or if it is short
and the draw says so. -/
def keep (corpus : Corpus) (s : String) (showed : Bool) : Gen Corpus := do
  if showed then grow corpus s
  else if (← Gen.chance 10) && s.length < 200 then grow corpus s
  else return corpus

/-- Tries one line. -/
def tryOne (r : Run) : Except Abort Run := do
  let fuzzer := { r.fuzzer with iterations := r.fuzzer.iterations + 1 }
  let (s, draws) := nextLine r.corpus r.draws
  let (showed, fuzzer) ← fuzzer.check s
  let (corpus, draws) := keep r.corpus s showed draws
  return { r with fuzzer, draws, corpus, tried := s :: r.tried }

/-- The counts of a run that has taken `seconds`. -/
def summaryLine (f : Fuzzer) (seconds : Float) : String :=
  toString f.iterations ++ " inputs in " ++ Decimal.fixedText 1 seconds ++ "s: " ++
    toString f.accepted ++ " accepted, " ++ toString f.rejected ++ " rejected, " ++
    toString f.findings.length ++ " findings"

/-- The summary of a run, which reads the clock. A run that started at time zero counts as one that has not
started. -/
def summary (r : Run) : Except Abort (String × Run) :=
  if r.started == 0.0 then .ok (summaryLine r.fuzzer 0.0, r)
  else do
    let (now, clock) ← r.clock.read
    return (summaryLine r.fuzzer (now - r.started), { r with clock })

/-- Prints a text. -/
def print (r : Run) (text : String) : Run :=
  { r with fuzzer := r.fuzzer.print text }

/-- Prints the summary. -/
def printSummary (r : Run) : Except Abort Run := do
  let (text, r) ← r.summary
  return r.print (text ++ "\n")

/-- Whether the count of lines is used up. -/
def linesUsed (r : Run) (limits : Limits) : Bool :=
  limits.lines.any fun n => n ≤ (r.fuzzer.iterations : Int)

/-- When the time of a run is used up. A limit of zero and an end at time zero count as none. -/
def endTime? (r : Run) (limits : Limits) : Option Float :=
  match limits.minutes with
  | none => none
  | some minutes =>
    let endTime := r.started + minutes * 60.0
    if minutes == 0.0 || endTime == 0.0 then none else some endTime

/-- Whether the time of a run is used up; a run with a limited time reads the clock. -/
def timeUsed (r : Run) (limits : Limits) : Except Abort (Bool × Run) :=
  match r.endTime? limits with
  | none => .ok (false, r)
  | some endTime => do
    let (now, clock) ← r.clock.read
    return (endTime < now, { r with clock })

/-- How often a run in which every line is reported prints its summary. -/
def summaryEvery : Nat := 1000

/-- How a loop ends: the run is over, or it is interrupted. -/
inductive Ended where
  | over (r : Run)
  | interrupted (r : Run)

/-- Goes on after a step that can be interrupted. The clock counts the reading that is the interruption. -/
def orInterrupted {α : Type} (r : Run) (step : Except Abort α) (next : α → Except Abort Ended) :
    Except Abort Ended :=
  match step with
  | .ok a => next a
  | .error .interrupted => .ok (.interrupted { r with clock := r.clock.interrupted })
  | .error abort => .error abort

/-- Tries lines, at most `fuel` of them. -/
def loop (limits : Limits) : Nat → Run → Except Abort Ended
  | 0, r => .ok (.over r)
  | fuel + 1, r =>
    if r.linesUsed limits then .ok (.over r)
    else
      r.orInterrupted (r.timeUsed limits) fun (used, r) =>
        if used then .ok (.over r)
        else do
          let r ← r.tryOne
          if r.fuzzer.settings.verbose && r.fuzzer.iterations % summaryEvery = 0 then
            r.orInterrupted r.printSummary (loop limits fuel)
          else loop limits fuel r

/-- A bound on the lines of a run: its limit, or what the clock allows. -/
def bound (r : Run) (limits : Limits) : Nat :=
  match limits.lines with
  | some n => n.toNat + 1
  | none =>
    let ticks := (limits.minutes.getD 0.0 * 60.0 / r.clock.step).toUInt64.toNat
    summaryEvery * (r.clock.interruptAt.getD 0 + 1) + ticks + 2

/-- A line of sixty characters. -/
def rule (c : Char) : String :=
  String.ofList (List.replicate 60 c) ++ "\n"

/-- Starts a run with the seeds: reads the clock and, if every line is reported, prints a head. -/
def start (r : Run) : Except Abort Run := do
  let (started, clock) ← r.clock.read
  let r := { r with clock, started, corpus := .seeds }
  return if r.fuzzer.settings.verbose then
    r.print ("Starting fuzzer (seed corpus: " ++ toString seedCorpus.length ++ " inputs)\n" ++ rule '-')
  else r

/-- Ends a run: if every line is reported, prints a foot. -/
def finish (r : Run) : Except Abort Run :=
  if r.fuzzer.settings.verbose then (r.print (rule '=')).printSummary else .ok r

/-- A whole run. An interruption ends only the loop. -/
def run (r : Run) (limits : Limits) : Except Abort Run := do
  let r ← r.start
  match ← loop limits (r.bound limits) r with
  | .over r => r.finish
  | .interrupted r => (r.print "\n\nInterrupted by user\n").finish

end Run

end TrafficKey.Fuzz
