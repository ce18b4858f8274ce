import TrafficKey.Fuzz.Draws
import TrafficKey.Text.Blank

/-!
# Generated lines

Lines that look like definitions, mostly with known names and often with a shape that no function accepts.
-/

namespace TrafficKey.Fuzz

/-! ## Pools -/

/-- Key names to generate. -/
def keyNames : List String :=
  ["ipsource", "ipdestination", "ip6source", "ip6destination", "ip6ttl", "ip6_offset"]

/-- Functions to generate. -/
def functions : List String := ["group", "country", "asn", "or", "null"]

theorem functions_ne_nil : functions ≠ [] := by
  simp [functions]

/-- Identifiers to generate beside the key names. -/
def identifiers : List String :=
  ["x", "foo", "trusted", "bad", "unknown", "gro_up1", "_G3_", "42", "ip5source"]

/-- Punctuation to generate. -/
def punctuation : List String := [":", ",", "[", "]"]

/-- The small letters. -/
def lowerLetters : List Char := [
  'a', 'b', 'c', 'd', 'e', 'f', 'g', 'h', 'i', 'j', 'k', 'l', 'm',
  'n', 'o', 'p', 'q', 'r', 's', 't', 'u', 'v', 'w', 'x', 'y', 'z']

/-- The capital letters. -/
def upperLetters : List Char := [
  'A', 'B', 'C', 'D', 'E', 'F', 'G', 'H', 'I', 'J', 'K', 'L', 'M',
  'N', 'O', 'P', 'Q', 'R', 'S', 'T', 'U', 'V', 'W', 'X', 'Y', 'Z']

/-- The digits. -/
def digits : List Char := ['0', '1', '2', '3', '4', '5', '6', '7', '8', '9']

/-- The characters of generated identifiers. -/
def wordChars : List Char := lowerLetters ++ upperLetters ++ digits ++ ['_']

/-- Valid lines that the fuzzer starts from. -/
def seedCorpus : List String := [
  "ip6destination",
  "ipsource,ipdestination",
  "country:ip6source",
  "asn:ipsource",
  "group:ip6source:trusted:bad",
  "group:ipdestination:gro_up1",
  "ip6destination,group:[country:ip6source]:trusted:bad:unknown",
  "or:ipsource:ip6source",
  "or:[country:ipsource]:[country:ip6source]:ip6ttl",
  "null:[country:ipsource]:unknown",
  "group:[null:[country:ipsource]:XX]:eu:us",
  "  ip6ttl,ip6bytes  "]

/-- A text `n` times in a row. -/
def times (n : Nat) (s : String) : String :=
  String.join (List.replicate n s)

/-- A call inside `depth` nested calls of `null`. -/
def nestIn (depth : Nat) (call : String) : String :=
  times depth "null:[" ++ call ++ times depth "]:d"

/-- A definition with `depth` nested calls of `null`. -/
def deepNesting (depth : Nat) : String :=
  nestIn depth "country:ipsource"

/-! ## Generators -/

/-- An identifier, mostly from the pools. -/
def identifier : Gen String := do
  if ← Gen.chance 700 then Gen.choose (identifiers ++ keyNames) (by simp [identifiers])
  else
    let length ← Gen.between 1 12
    let chars ← Gen.collect length (Gen.choose wordChars (by simp [wordChars]))
    return String.ofList chars

/-- An argument; `nested` generates a call in brackets, where one is allowed. -/
def argument (nested : Option (Gen String)) : Gen String :=
  match nested with
  | none => identifier
  | some call => do
    if ← Gen.chance 300 then return "[" ++ (← call) ++ "]" else identifier

/-- A call with up to four arguments. -/
def callWith (nested : Option (Gen String)) : Gen String := do
  let name ← if ← Gen.chance 900 then Gen.choose functions functions_ne_nil else identifier
  let count ← Gen.between 0 4
  let args ← Gen.collect count (argument nested)
  return Text.join ":" (name :: args)

/-- A call with up to `levels` levels of nested calls. -/
def call : Nat → Gen String
  | 0 => callWith none
  | levels + 1 => callWith (some (call levels))

/-- How many levels of nested calls a generated call has at most. -/
def callLevels : Nat := 4

/-- A key: a key name or a call. -/
def key : Gen String := do
  if ← Gen.chance 500 then Gen.choose keyNames (by simp [keyNames]) else call callLevels

/-- A line of up to four keys. -/
def line : Gen String := do
  let count ← Gen.between 1 4
  let keys ← Gen.collect count key
  return Text.join "," keys

end TrafficKey.Fuzz
