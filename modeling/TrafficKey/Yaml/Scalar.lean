import TrafficKey.Data.Base64
import TrafficKey.Data.Basic
import TrafficKey.Text.LowerCase
import TrafficKey.Text.Split
import TrafficKey.Yaml.Fault

/-!
# The values of scalars

What a plain scalar of YAML 1.1 stands for: null, a truth value, a number, a date or moment, one of the
two special keys, or else the string itself. A tag can give a scalar a type that its text does not have;
then its value may be a fault.
-/

namespace TrafficKey.Yaml

/-- The types of scalars. -/
inductive ScalarType where
  | null
  | bool
  | int
  | float
  | timestamp
  /-- the key `<<` -/
  | merge
  /-- the key `=` -/
  | value
  | binary
  | str
deriving DecidableEq, Repr

/-! ## Patterns

A pattern takes the beginning of a text and gives what is left of it. -/

/-- ASCII digits. -/
def isDigit (c : Char) : Bool := c.isDigit

/-- ASCII digits and the underscore. -/
def isDigit_ (c : Char) : Bool := c.isDigit || c == '_'

/-- The text without a leading sign. -/
def dropSign : List Char → List Char
  | '-' :: cs => cs
  | '+' :: cs => cs
  | cs => cs

/-- Whether a text is non-empty and has only characters of a class. -/
def allOf (p : Char → Bool) (cs : List Char) : Bool :=
  !cs.isEmpty && cs.all p

/-- Groups of base sixty, each `:` and one or two digits up to 59; the rest of the text after the last
group, if there is at least one group. -/
def sixties : Nat → List Char → Option (List Char)
  | 0, _ => none
  | fuel + 1, cs =>
    let next : Option (List Char) :=
      match cs with
      | ':' :: a :: b :: rest =>
        if '0' ≤ a && a ≤ '5' && isDigit b then some rest
        else if isDigit a then some (b :: rest)
        else none
      | [':', a] => if isDigit a then some [] else none
      | _ => none
    match next with
    | none => none
    | some rest => (sixties fuel rest).orElse fun _ => some rest

/-- An exponent with a sign, or nothing. -/
def isExponent : List Char → Bool
  | [] => true
  | e :: sign :: digits => (e == 'e' || e == 'E') && (sign == '-' || sign == '+') && allOf isDigit digits
  | _ => false

/-- An integer: binary, octal, decimal, hexadecimal or base sixty, with underscores between digits. -/
def isInt (cs : List Char) : Bool :=
  match dropSign cs with
  | '0' :: 'b' :: rest => allOf (fun c => c == '0' || c == '1' || c == '_') rest
  | '0' :: 'x' :: rest =>
    allOf (fun c => isDigit_ c || ('a' ≤ c && c ≤ 'f') || ('A' ≤ c && c ≤ 'F')) rest
  | ['0'] => true
  | '0' :: rest => rest.all fun c => ('0' ≤ c && c ≤ '7') || c == '_'
  | c :: rest =>
    '1' ≤ c && c ≤ '9' &&
      (let after := rest.dropWhile isDigit_
       after.isEmpty || sixties after.length after == some [])
  | [] => false

/-- A number with a point: decimal or base sixty, or one of the special values. -/
def isFloat (cs : List Char) : Bool :=
  let unsigned := dropSign cs
  let special := unsigned == ".inf".toList || unsigned == ".Inf".toList || unsigned == ".INF".toList ||
    cs == ".nan".toList || cs == ".NaN".toList || cs == ".NAN".toList
  let fraction := match cs with
    | '.' :: d :: rest => isDigit d && isExponent (rest.dropWhile isDigit_)
    | _ => false
  let decimal := match unsigned with
    | d :: rest =>
      isDigit d &&
        match rest.dropWhile isDigit_ with
        | '.' :: after => isExponent (after.dropWhile isDigit_)
        | after =>
          match sixties after.length after with
          | some ('.' :: places) => places.all isDigit_
          | _ => false
    | [] => false
  special || fraction || decimal

/-- The digits at the start of a text, of which there must be at least `least` and are taken at most
`most`, and the rest. -/
def takeDigits (least most : Nat) (cs : List Char) : Option (List Char × List Char) :=
  let digits := (cs.take most).takeWhile isDigit
  if least ≤ digits.length then some (digits, cs.drop digits.length) else none

/-- The text after a character that must come next. -/
def skip (c : Char) : List Char → Option (List Char)
  | d :: cs => if c == d then some cs else none
  | [] => none

/-- A date or moment by its fields, before its values are checked. -/
structure Timestamp where
  date : Date
  clock : Option (Nat × Nat × Nat × Nat)
  zone : Option Int
deriving Repr

/-- The zone at the end of a moment: nothing, `Z`, or a signed distance. -/
def readZone (cs : List Char) : Option (Option Int) :=
  match cs with
  | [] => some none
  | _ =>
    match cs.dropWhile fun c => c == ' ' || c == '\t' with
    | ['Z'] => some (some 0)
    | sign :: rest =>
      if sign == '-' || sign == '+' then do
        let (hours, rest) ← takeDigits 1 2 rest
        let minutes ← match rest with
          | [] => some 0
          | _ => do
            let (minutes, rest) ← takeDigits 2 2 (← skip ':' rest)
            if rest.isEmpty then some (Decimal.ofDigits minutes) else none
        let distance : Int := Decimal.ofDigits hours * 60 + minutes
        some (some (if sign == '-' then -distance else distance))
      else none
    | [] => none

/-- A date, or a date and a time of day. -/
def readTimestamp (cs : List Char) : Option Timestamp := do
  let (year, rest) ← takeDigits 4 4 cs
  let (month, rest) ← takeDigits 1 2 (← skip '-' rest)
  let (day, rest) ← takeDigits 1 2 (← skip '-' rest)
  let date : Date := ⟨Decimal.ofDigits year, Decimal.ofDigits month, Decimal.ofDigits day⟩
  match rest with
  | [] => some ⟨date, none, none⟩
  | c :: after =>
    let after ←
      if c == 'T' || c == 't' then some after
      else if c == ' ' || c == '\t' then some (rest.dropWhile fun c => c == ' ' || c == '\t')
      else none
    let (hour, rest) ← takeDigits 1 2 after
    let (minute, rest) ← takeDigits 2 2 (← skip ':' rest)
    let (second, rest) ← takeDigits 2 2 (← skip ':' rest)
    let (fraction, rest) := match rest with
      | '.' :: rest => (rest.takeWhile isDigit, rest.dropWhile isDigit)
      | _ => ([], rest)
    let micro := Decimal.ofDigits ((fraction ++ List.replicate 6 '0').take 6)
    let zone ← readZone rest
    some ⟨date, some (Decimal.ofDigits hour, Decimal.ofDigits minute, Decimal.ofDigits second, micro), zone⟩

/-- Whether a plain scalar is a date or moment: a date alone is written in full. -/
def isTimestamp (cs : List Char) : Bool :=
  (readTimestamp cs).any fun t => t.clock.isSome || cs.length == 10

/-- The words for true. -/
def trueWords : List String := ["yes", "Yes", "YES", "true", "True", "TRUE", "on", "On", "ON"]

/-- The words for false. -/
def falseWords : List String := ["no", "No", "NO", "false", "False", "FALSE", "off", "Off", "OFF"]

/-- The words for null. -/
def nullWords : List String := ["", "~", "null", "Null", "NULL"]

/-- The type of a plain scalar. -/
def scalarType (s : String) : ScalarType :=
  let cs := s.toList
  if trueWords.contains s || falseWords.contains s then .bool
  else if isFloat cs then .float
  else if isInt cs then .int
  else if s == "<<" then .merge
  else if nullWords.contains s then .null
  else if isTimestamp cs then .timestamp
  else if s == "=" then .value
  else .str

/-! ## Values -/

/-- The value of a hexadecimal digit. -/
def digitValue (c : Char) : Nat :=
  if isDigit c then c.toNat - '0'.toNat
  else if 'a' ≤ c && c ≤ 'f' then c.toNat - 'a'.toNat + 10
  else c.toNat - 'A'.toNat + 10

/-- The number of a digit string in a base. -/
def numberIn (base : Nat) (digits : List Char) : Nat :=
  digits.foldl (fun n d => base * n + digitValue d) 0

/-- Whether a text starts with a minus sign. -/
def isNegative (cs : List Char) : Bool :=
  cs.head? == some '-'

/-- The integer of a text in a base. -/
def intIn (base : Nat) (cs : List Char) : Except ReadFault Int :=
  (Decimal.readIntIn base cs).mapError (.ofIntFault base cs)

/-- The value of an integer without its sign: its first characters tell the base. -/
def unsignedInt (cs : List Char) : Except ReadFault Int :=
  match cs with
  | ['0'] => .ok 0
  | '0' :: 'b' :: digits => intIn 2 digits
  | '0' :: 'x' :: digits => intIn 16 digits
  | [] => .error .noNumber
  | '0' :: _ => intIn 8 cs
  | _ =>
    if cs.contains ':' then do
      let parts ← (Text.splitChars ':' cs).mapM (intIn 10)
      return parts.foldl (fun n part => 60 * n + part) 0
    else intIn 10 cs

/-- The value of an integer scalar. -/
def intValue (text : String) : Except ReadFault Int :=
  let cs := text.toList.filter (· != '_')
  if cs.isEmpty then .error .noNumber
  else do
    let n ← unsignedInt (dropSign cs)
    return if isNegative cs then -n else n

/-- The number of a text. -/
def fractionIn (cs : List Char) : Except ReadFault Float :=
  match Decimal.readFloat? (String.ofList cs) with
  | some x => .ok x
  | none => .error (.notFraction (String.ofList cs))

/-- The sum of numbers, the last of which counts once and each before it sixty times the next. -/
def sumSixties (parts : List Float) : Float :=
  (parts.reverse.foldl (fun (acc : Float × Nat) part =>
    (acc.1 + part * Float.ofNat (Nat.pow 60 acc.2), acc.2 + 1)) (0.0, 0)).1

/-- The value of a scalar with a point. -/
def floatValue (text : String) : Except ReadFault Float :=
  let cs := (Text.lower (String.ofList (text.toList.filter (· != '_')))).toList
  let unsigned := dropSign cs
  if cs.isEmpty then .error .noNumber
  else if unsigned == ".nan".toList then .ok (0.0 / 0.0)
  else do
    let size ←
      if unsigned == ".inf".toList then .ok (1.0 / 0.0)
      else if unsigned.contains ':' then
        sumSixties <$> (Text.splitChars ':' unsigned).mapM fractionIn
      else fractionIn unsigned
    return if isNegative cs then -size else size

/-- The truth value of a word, in any case. -/
def boolValue (text : String) : Except ReadFault Bool :=
  let word := Text.lower text
  if trueWords.contains word then .ok true
  else if falseWords.contains word then .ok false
  else .error (.notTruth word)

/-- The value of a timestamp, if its fields are in range. -/
def Timestamp.value (t : Timestamp) : Except String Data :=
  match t.clock with
  | none =>
    match t.date.fault? with
    | some fault => .error fault
    | none => .ok (.date t.date)
  | some (hour, minute, second, micro) =>
    let moment : Moment := ⟨t.date, hour, minute, second, micro, t.zone⟩
    match t.zone.bind Moment.zoneFault?, moment.fault? with
    | some fault, _ => .error fault
    | none, some fault => .error fault
    | none, none => .ok (.moment moment)

/-- The bytes of a text that must be ASCII. -/
def bytesOf? (text : String) : Option (List UInt8) :=
  if text.toList.all (·.toNat < 0x80) then Base64.decode text else none

/-- The value of a scalar of a type. -/
def scalarData (type : ScalarType) (text : String) : Except ReadFault Data :=
  match type with
  | .null => .ok .null
  | .str => .ok (.str text)
  | .bool => .bool <$> boolValue text
  | .int => .int <$> intValue text
  | .float => .float <$> floatValue text
  | .binary => orInvalid ((bytesOf? text).map .bytes)
  | .timestamp =>
    match readTimestamp text.toList with
    | some t => t.value.mapError .badDate
    | none => .error .notDate
  | .merge | .value => .error .invalid

end TrafficKey.Yaml
