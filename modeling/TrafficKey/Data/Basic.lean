import TrafficKey.Data.Calendar
import TrafficKey.Decimal.Shortest
import TrafficKey.Decimal.Write
import TrafficKey.Text.Quoted

/-!
# Plain data

The values of data files: what an extension file holds and what a definition is turned into for
output. Mappings keep the order of their entries and may have any value as a key.

A collection in a file can be part of itself. Such a file is unrolled to a finite depth, and each of its
collections is a `knot` with a number, so that a collection is known again inside itself. `items?` and
`entries?` see through knots.

Not every value can be shown. A message goes into a value level by level, and fails where it has gone as deep
as there is `room` on the stack, or where it comes to an integer of too many digits.
-/

namespace TrafficKey

/-- A value of a data file. -/
inductive Data where
  | null
  | bool (b : Bool)
  | int (n : Int)
  | float (x : Float)
  | str (s : String)
  /-- a text of which some codes are no characters -/
  | rawText (codes : List Nat)
  | bytes (content : List UInt8)
  | date (d : Date)
  | moment (m : Moment)
  | list (items : List Data)
  /-- an entry of an ordered mapping -/
  | pair (key value : Data)
  | map (entries : List (Data × Data))
  | set (items : List Data)
  /-- a collection that can be part of itself -/
  | knot (id : Nat) (value : Data)
deriving Inhabited

namespace Data

/-- The name of a value's type in messages. -/
def typeName : Data → String
  | .null => "NoneType"
  | .bool _ => "bool"
  | .int _ => "int"
  | .float _ => "float"
  | .str _ | .rawText _ => "str"
  | .bytes _ => "bytes"
  | .date _ => "datetime.date"
  | .moment _ => "datetime.datetime"
  | .list _ => "list"
  | .pair _ _ => "tuple"
  | .map _ => "dict"
  | .set _ => "set"
  | .knot _ value => value.typeName

/-- The items of a list. -/
def items? : Data → Option (List Data)
  | .list items => some items
  | .knot _ value => value.items?
  | _ => none

/-- The entries of a mapping. -/
def entries? : Data → Option (List (Data × Data))
  | .map entries => some entries
  | .knot _ value => value.entries?
  | _ => none

/-! ## Text -/

/-- What stands for a collection inside itself. -/
def againText : Data → String
  | .list _ => "[...]"
  | .map _ => "\x7b...\x7d"
  | .set _ => "set(...)"
  | _ => "..."

mutual

/-- A value inside a message, within the knots of the given numbers: strings are quoted. -/
def quotedIn (outer : List Nat) : Data → String
  | .null => "None"
  | .bool b => if b then "True" else "False"
  | .int n => toString n
  | .float x => Decimal.shortestText x
  | .str s => Text.quoted s
  | .rawText codes => Text.quotedCodes codes
  | .bytes content => Text.quotedBytes content
  | .date d => d.debugText
  | .moment m => m.debugText
  | .list [] => "[]"
  | .list (item :: items) => "[" ++ item.quotedIn outer ++ quotedItems outer items ++ "]"
  | .pair key value => "(" ++ key.quotedIn outer ++ ", " ++ value.quotedIn outer ++ ")"
  | .map [] => "\x7b\x7d"
  | .map ((key, value) :: entries) =>
    "\x7b" ++ key.quotedIn outer ++ ": " ++ value.quotedIn outer ++ quotedEntries outer entries ++ "\x7d"
  | .set [] => "set()"
  | .set (item :: items) => "\x7b" ++ item.quotedIn outer ++ quotedItems outer items ++ "\x7d"
  | .knot id value => if outer.contains id then value.againText else value.quotedIn (id :: outer)

/-- The items of a list after the first. -/
def quotedItems (outer : List Nat) : List Data → String
  | [] => ""
  | item :: items => ", " ++ item.quotedIn outer ++ quotedItems outer items

/-- The entries of a mapping after the first. -/
def quotedEntries (outer : List Nat) : List (Data × Data) → String
  | [] => ""
  | (key, value) :: entries =>
    ", " ++ key.quotedIn outer ++ ": " ++ value.quotedIn outer ++ quotedEntries outer entries

end

/-- A value as text: a string stands for itself. -/
def plainText : Data → String
  | .str s => s
  | .rawText codes => String.ofList (codes.map Char.ofNat)
  | .date d => d.text
  | .moment m => m.text
  | d => d.quotedIn []

/-- Why a value cannot be shown. -/
inductive ShowFault where
  /-- an integer in it is too long to be written -/
  | longNumber
  /-- it is nested too deep -/
  | tooDeep
deriving DecidableEq, Repr

mutual

/-- The first thing that keeps a value from being shown, within the knots of the given numbers, if there is
room for so many levels. -/
def faultIn (outer : List Nat) : Nat → Data → Option ShowFault
  | 0, _ => some .tooDeep
  | _ + 1, .int n => if Decimal.Fits n then none else some .longNumber
  | room + 1, .moment m => if room < m.zoneLevels then some .tooDeep else none
  | room + 1, .list items => faultAmong outer room items
  | room + 1, .pair key value => key.faultIn outer room <|> value.faultIn outer room
  | room + 1, .map entries => faultAmongEntries outer room entries
  -- a set is shown by way of a list
  | room + 1, .set items => faultAmong outer (room - 1) items
  | room + 1, .knot id value => if outer.contains id then none else value.faultIn (id :: outer) (room + 1)
  | _, _ => none

/-- The first thing that keeps some values from being shown. -/
def faultAmong (outer : List Nat) (room : Nat) : List Data → Option ShowFault
  | [] => none
  | item :: items => item.faultIn outer room <|> faultAmong outer room items

/-- The first thing that keeps the keys and values of some entries from being shown. -/
def faultAmongEntries (outer : List Nat) (room : Nat) : List (Data × Data) → Option ShowFault
  | [] => none
  | (key, value) :: entries =>
    key.faultIn outer room <|> value.faultIn outer room <|> faultAmongEntries outer room entries

end

/-- A value inside a message. -/
def quoted (room : Nat) (d : Data) : Except ShowFault String :=
  match d.faultIn [] room with
  | some fault => .error fault
  | none => .ok (d.quotedIn [])

/-- A value as text; a string is not gone into. -/
def text (room : Nat) (d : Data) : Except ShowFault String :=
  match d with
  | .str _ | .rawText _ => .ok d.plainText
  | d =>
    match d.faultIn [] room with
    | some fault => .error fault
    | none => .ok d.plainText

/-! ## Equality -/

/-- The number that a value counts as in comparisons: truth values count as 0 and 1. -/
def number? : Data → Option Int
  | .bool b => some (if b then 1 else 0)
  | .int n => some n
  | _ => none

/-- The whole number that a floating-point number is equal to, if there is one. -/
def wholeNumber? (x : Float) : Option Int :=
  match Decimal.Reading.ofFloat x with
  | .finite b =>
    let (num, den) := b.ratio
    if num % den = 0 then
      some (if b.negative then -((num / den : Nat) : Int) else ((num / den : Nat) : Int))
    else none
  | _ => none

mutual

/-- Whether two values are equal. Numbers are compared across types, and truth values are numbers. What is no
number is equal to itself. -/
def same : Data → Data → Bool
  | .null, .null => true
  | .float x, .float y => x == y || (x.isNaN && y.isNaN)
  | .float x, d => wholeNumber? x |>.any fun n => d.number? == some n
  | d, .float y => wholeNumber? y |>.any fun n => d.number? == some n
  | .str a, .str b => a == b
  | .rawText a, .rawText b => a == b
  | .bytes a, .bytes b => a == b
  | .date a, .date b => a == b
  | .moment a, .moment b => a.same b
  | .list as, .list bs => sameItems as bs
  | .pair k v, .pair l w => k.same l && v.same w
  | .map as, .map bs => sameEntries as bs
  | .set as, .set bs => sameItems as bs
  | .knot _ a, .knot _ b => a.same b
  | .bool a, d => d.number? == some (if a then 1 else 0)
  | .int a, d => d.number? == some a
  | _, _ => false

/-- Whether two lists are equal, item by item. -/
def sameItems : List Data → List Data → Bool
  | [], [] => true
  | a :: as, b :: bs => a.same b && sameItems as bs
  | _, _ => false

/-- Whether two mappings have equal entries in the same order. -/
def sameEntries : List (Data × Data) → List (Data × Data) → Bool
  | [], [] => true
  | (k, v) :: as, (l, w) :: bs => k.same l && v.same w && sameEntries as bs
  | _, _ => false

end

/-! ## Mappings -/

/-- The value of a string key. -/
def get? (entries : List (Data × Data)) (key : String) : Option Data :=
  (entries.find? fun (k, _) => match k with
    | .str s => s == key
    | _ => false).map (·.2)

/-- Puts an entry into a mapping: an equal key keeps its place and gets the new value. -/
def put (key value : Data) : List (Data × Data) → List (Data × Data)
  | [] => [(key, value)]
  | (k, v) :: entries =>
    if k.same key then (k, value) :: entries else (k, v) :: put key value entries

/-- A mapping with string keys. -/
def record (fields : List (String × Data)) : Data :=
  .map (fields.map fun (name, value) => (.str name, value))

end Data

end TrafficKey
