import TrafficKey.Text.Digit
import TrafficKey.Text.Quoted
import TrafficKey.Text.Split

/-!
# Command lines

The words of a command line are read against a list of options. A word that starts with a dash names an
option: exactly, up to an equals sign that is followed by a value, by an unambiguous start of a long name, or
as a cluster of short names whose last may have its value attached. Negative numbers, words with a space and
all words after a double dash are arguments.

`items` gives what the words ask for, in order. The first fault ends the list.
-/

namespace TrafficKey.CommandLine

/-- An option: its names as messages list them, and whether a value follows. -/
structure OptionSpec where
  names : List String
  takesValue : Bool
deriving DecidableEq, Repr

/-- The option in messages. -/
def OptionSpec.label (o : OptionSpec) : String :=
  Text.join "/" o.names

/-- What is wrong with a command line. -/
inductive Fault where
  | ambiguous (word : String) (names : List String)
  | missingValue (option : OptionSpec)
  | ignoredValue (option : OptionSpec) (value : String)
  /-- a value that the option does not accept, and why -/
  | badValue (option : OptionSpec) (reason : String)
  | unrecognized (words : List String)
deriving DecidableEq, Repr

/-- The wording of a fault. -/
def Fault.message : Fault → String
  | .ambiguous word names => "ambiguous option: " ++ word ++ " could match " ++ Text.join ", " names
  | .missingValue o => "argument " ++ o.label ++ ": expected one argument"
  | .ignoredValue o value =>
    "argument " ++ o.label ++ ": ignored explicit argument " ++ Text.quoted value
  | .badValue o reason => "argument " ++ o.label ++ ": " ++ reason
  | .unrecognized words => "unrecognized arguments: " ++ Text.join " " words

/-- What a word of a command line is. -/
inductive Word where
  /-- an option, whether its name is long, and what is written behind it in the same word -/
  | option (spec : OptionSpec) (long : Bool) (attached : Option String)
  | unknownOption
  | separator
  | argument
deriving DecidableEq, Repr

/-- Whether a name is long: it starts with two dashes. -/
def isLong (cs : List Char) : Bool :=
  cs.take 2 == ['-', '-']

/-- The option of a name. -/
def find? (specs : List OptionSpec) (name : String) : Option OptionSpec :=
  specs.find? (·.names.contains name)

/-- The part of a word before its first equals sign, and the part after it if there is one. -/
def cutAtEquals (cs : List Char) : List Char × Option (List Char) :=
  (cs.takeWhile (· != '='), match cs.dropWhile (· != '=') with
    | [] => none
    | _ :: value => some value)

/-- Whether the characters after a dash make a negative number. A line break at their end does not count. -/
def isNumber (word : List Char) : Bool :=
  let cs := if word.getLast? == some '\n' then word.dropLast else word
  match cs.dropWhile Text.isDecimalDigit with
  | [] => !cs.isEmpty
  | '.' :: places => !places.isEmpty && places.all Text.isDecimalDigit
  | _ => false

/-- A word that names no option exactly. -/
def inexactWord (specs : List OptionSpec) (word : String) : Except Fault Word :=
  let cs := word.toList
  let (name, value) := cutAtEquals cs
  let attached := value.map String.ofList
  -- negative numbers and words with a space are never taken for misspelt options
  let unknown := if isNumber (cs.drop 1) || cs.contains ' ' then Word.argument else .unknownOption
  match value, find? specs (String.ofList name) with
  | some _, some spec => .ok (.option spec (isLong cs) attached)
  | _, _ =>
    if isLong cs then
      -- a long name may be cut short as long as it stays the only one
      let candidates := (specs.flatMap (·.names)).filter fun n => name.isPrefixOf n.toList
      match candidates with
      | [] => .ok unknown
      | [n] =>
        match find? specs n with
        | some spec => .ok (.option spec true attached)
        | none => .ok unknown
      | _ => .error (.ambiguous word candidates)
    else
      match find? specs (String.ofList (cs.take 2)) with
      | some spec => .ok (.option spec false (some (String.ofList (cs.drop 2))))
      | none => .ok unknown

/-- What a word before the separator is. -/
def readWord (specs : List OptionSpec) (word : String) : Except Fault Word :=
  match word.toList with
  | '-' :: rest =>
    match find? specs word with
    | some spec => .ok (.option spec (isLong word.toList) none)
    | none => if rest.isEmpty then .ok .argument else inexactWord specs word
  | _ => .ok .argument

/-- What each word is. -/
def readWords (specs : List OptionSpec) : List String → Except Fault (List (String × Word))
  | [] => .ok []
  | word :: words =>
    -- after the separator nothing is an option
    if word = "--" then .ok ((word, .separator) :: words.map (·, .argument))
    else do
      let kind ← readWord specs word
      return (word, kind) :: (← readWords specs words)

/-- Something that a command line asks for. -/
inductive Item where
  | option (spec : OptionSpec) (value : Option String)
  /-- a word that means nothing -/
  | extra (word : String)
  /-- all words from the first argument on -/
  | rest (words : List String)
  | fault (f : Fault)
deriving DecidableEq, Repr

/-- What the word of an option says: its items, and the option whose value is still to come. -/
structure Reading where
  items : List Item
  awaits : Option OptionSpec := none

/-- Short names in one word: the characters are what follows the first of them, `spec`, which takes no
value. -/
def cluster (specs : List OptionSpec) (spec : OptionSpec) : List Char → Except Fault Reading
  | [] => .ok ⟨[.option spec none], none⟩
  | c :: cs =>
    match find? specs (String.ofList ['-', c]) with
    | none => .error (.ignoredValue spec (String.ofList (c :: cs)))
    | some next =>
      if next.takesValue then
        match cs with
        | [] => .ok ⟨[.option spec none], some next⟩
        | value => .ok ⟨[.option spec none, .option next (some (String.ofList value))], none⟩
      else do
        let reading ← cluster specs next cs
        return { reading with items := .option spec none :: reading.items }

/-- Reads the word of an option. -/
def readOption (specs : List OptionSpec) (spec : OptionSpec) (long : Bool) :
    Option String → Except Fault Reading
  | none => if spec.takesValue then .ok ⟨[], some spec⟩ else .ok ⟨[.option spec none], none⟩
  | some attached =>
    if spec.takesValue then .ok ⟨[.option spec (some attached)], none⟩
    else if long || attached == "" then .error (.ignoredValue spec attached)
    else cluster specs spec attached.toList

/-- What words ask for. With `remainder`, the first argument and all words after it are kept for the
program; without it they mean nothing. -/
def itemsOf (specs : List OptionSpec) (remainder : Bool) : List (String × Word) → List Item
  | [] => if remainder then [.rest []] else []
  | (_, .option spec long attached) :: words =>
    match readOption specs spec long attached with
    | .error f => [.fault f]
    | .ok ⟨items, none⟩ => items ++ itemsOf specs remainder words
    | .ok ⟨items, some awaits⟩ =>
      match words with
      | (value, .argument) :: words =>
        items ++ .option awaits (some value) :: itemsOf specs remainder words
      | _ => [.fault (.missingValue awaits)]
  | (word, .unknownOption) :: words => .extra word :: itemsOf specs remainder words
  | (word, _) :: words =>
    if remainder then [.rest (word :: words.map (·.1))]
    else .extra word :: itemsOf specs remainder words

/-- What a command line asks for. -/
def items (specs : List OptionSpec) (remainder : Bool) (words : List String) : List Item :=
  match readWords specs words with
  | .ok words => itemsOf specs remainder words
  | .error f => [.fault f]

/-- What a program does with a command line. -/
inductive Request (α : Type) where
  | help
  | wrong (f : Fault)
  | run (options : α)

/-- Applies the items of a command line in order: `set` takes an option with its value, `none` meaning that
help is asked for, and `keep` takes the remaining words. Words that mean nothing are reported last. -/
def request {α : Type} (set : α → OptionSpec → Option String → Except Fault (Option α))
    (keep : α → List String → α) (unknown : List String) (options : α) : List Item → Request α
  | [] => if unknown.isEmpty then .run options else .wrong (.unrecognized unknown)
  | .option spec value :: items =>
    match set options spec value with
    | .error f => .wrong f
    | .ok none => .help
    | .ok (some options) => request set keep unknown options items
  | .extra word :: items => request set keep (unknown ++ [word]) options items
  | .rest words :: items => request set keep unknown (keep options words) items
  | .fault f :: _ => .wrong f

/-- What is printed for a wrong command line. -/
def errorText (program usage : String) (f : Fault) : String :=
  usage ++ program ++ ": error: " ++ f.message ++ "\n"

end TrafficKey.CommandLine
