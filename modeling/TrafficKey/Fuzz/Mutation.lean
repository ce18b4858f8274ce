import TrafficKey.Fuzz.Generator
import TrafficKey.Text.Split
import TrafficKey.Token

/-!
# Mutations

Small changes that turn a line into a similar one. Each works on any text whatever.
-/

namespace TrafficKey.Fuzz

/-- The runs of identifier characters of a text and its other characters, one by one, in order. -/
def pieces : List Char → List (List Char)
  | [] => []
  | c :: cs =>
    match pieces cs with
    | (d :: run) :: rest =>
      if isNameChar c && isNameChar d then (c :: d :: run) :: rest else [c] :: (d :: run) :: rest
    | rest => [c] :: rest

/-- `pieces` for strings. -/
def piecesOf (s : String) : List String :=
  (pieces s.toList).map String.ofList

/-- A text with another text inserted before its character at `place`. -/
def insertAt (place : Nat) (text s : String) : String :=
  String.ofList (s.toList.take place ++ text.toList ++ s.toList.drop place)

/-- Inserts a token or a blank. All alternatives are generated before one of them is chosen. -/
def insertToken (s : String) : Gen String := do
  let place ← Gen.between 0 s.toList.length
  let mark ← Gen.choose punctuation (by simp [punctuation])
  let function ← Gen.choose functions functions_ne_nil
  let name ← identifier
  let blanks ← Gen.between 1 3
  let text ← Gen.choose [mark, function ++ ":", name, times blanks " ", "\t"] (by simp)
  return insertAt place text s

/-- Removes one piece of a text that has at least two. -/
def dropPiece (s : String) : Gen String := do
  let ps := pieces s.toList
  if h : 2 ≤ ps.length then
    let i ← Gen.below ps.length (by omega)
    return String.ofList (ps.eraseIdx i).flatten
  else return s

/-- A list with the members at two places swapped. -/
def swapAt {α : Type} (xs : List α) (i j : Fin xs.length) : List α :=
  (xs.set i (xs.get j)).set j (xs.get i)

/-- The `k`-th place of a list other than the place `i`. -/
def otherPlace {n : Nat} (i : Fin n) (k : Fin (n - 1)) : Fin n :=
  if k.val < i.val then ⟨k.val, by omega⟩ else ⟨k.val + 1, by omega⟩

/-- Swaps two members of a list. -/
def swapTwo {α : Type} (xs : List α) (h : 2 ≤ xs.length) : Gen (List α) := do
  let i ← Gen.below xs.length (by omega)
  let k ← Gen.below (xs.length - 1) (by omega)
  return swapAt xs i (otherPlace i k)

/-- Swaps two keys; a single key is repeated. -/
def swapKeys (s : String) : Gen String :=
  let keys := Text.split ',' s
  if h : 2 ≤ keys.length then do
    let swapped ← swapTwo keys h
    return Text.join "," swapped
  else return s ++ "," ++ s

/-- Puts up to three copies of a member of a list, but not of its first, in front of that member. -/
def repeatOne {α : Type} (xs : List α) (h : 2 ≤ xs.length) : Gen (List α) := do
  let k ← Gen.below (xs.length - 1) (by omega)
  let i : Fin xs.length := ⟨k.val + 1, by omega⟩
  let count ← Gen.between 1 3
  return xs.take i ++ List.replicate count (xs.get i) ++ xs.drop i

/-- Repeats an argument; a text without one gets one. -/
def repeatArgument (s : String) : Gen String :=
  let parts := Text.split ':' s
  if h : 2 ≤ parts.length then do
    let parts ← repeatOne parts h
    return Text.join ":" parts
  else do
    let name ← identifier
    return s ++ ":" ++ name

/-- The places of the identifiers among pieces. -/
def namePlaces (ps : List (List Char)) : List Nat :=
  (List.range ps.length).filter fun i => ((ps.getD i []).headD ' ' |> isNameChar)

/-- Drops a character of an identifier, makes it a capital letter, or puts another in its place. -/
def misspell (s : String) : Gen String := do
  let ps := pieces s.toList
  if h : namePlaces ps ≠ [] then
    let i ← Gen.choose (namePlaces ps) h
    let name := ps.getD i []
    if hn : 0 < name.length then
      let place ← Gen.below name.length hn
      let other ← Gen.choose (lowerLetters ++ digits) (by simp [digits])
      let replacement ← Gen.choose [[], [(name.get place).toUpper], [other]] (by simp)
      let changed := name.take place ++ replacement ++ name.drop (place + 1)
      return String.ofList (ps.set i changed).flatten
    else return s
  else return s

/-- Puts the first key into nested calls of `null`; a key name becomes the argument of a call first. -/
def nest (s : String) : Gen String := do
  let head := s.toList.takeWhile (· != ',')
  let tail := s.toList.dropWhile (· != ',')
  let call := if head.contains ':' then String.ofList head else "country:" ++ String.ofList head
  let depth ← Gen.choose [1, 2, maxDepth, maxDepth + 1] (by simp)
  return nestIn depth call ++ String.ofList tail

/-- Texts that are rarely seen in lines. -/
def specials : List String := ["\x00", "\r\n", "🎉", "α", "²", "[[[[", "]]", "::", ",,"]

/-- Inserts a text that is rarely seen. -/
def insertSpecial (s : String) : Gen String := do
  let place ← Gen.between 0 s.toList.length
  let text ← Gen.choose specials (by simp [specials])
  return insertAt place text s

/-- A way to change a line. -/
inductive Mutation where
  /-- insert a token or a blank -/
  | insertToken
  /-- remove an identifier or another character -/
  | dropPiece
  /-- swap two keys -/
  | swapKeys
  /-- repeat an argument, which may be more than the function takes -/
  | repeatArgument
  /-- change a character of an identifier -/
  | misspell
  /-- put the first key into nested calls, sometimes too many of them -/
  | nest
  /-- insert characters that are rarely seen in lines -/
  | insertSpecial
deriving DecidableEq, Repr

namespace Mutation

/-- All mutations. -/
def all : List Mutation :=
  [.insertToken, .dropPiece, .swapKeys, .repeatArgument, .misspell, .nest, .insertSpecial]

/-- Applies a mutation. -/
def apply : Mutation → String → Gen String
  | .insertToken => Fuzz.insertToken
  | .dropPiece => Fuzz.dropPiece
  | .swapKeys => Fuzz.swapKeys
  | .repeatArgument => Fuzz.repeatArgument
  | .misspell => Fuzz.misspell
  | .nest => Fuzz.nest
  | .insertSpecial => Fuzz.insertSpecial

end Mutation

/-- Applies a mutation of any kind. -/
def mutate (s : String) : Gen String := do
  let mutation ← Gen.choose Mutation.all (by simp [Mutation.all])
  mutation.apply s

/-- Applies `n` mutations of any kind, one after the other. -/
def mutateTimes : Nat → String → Gen String
  | 0, s => return s
  | n + 1, s => do
    let s ← mutate s
    mutateTimes n s

end TrafficKey.Fuzz
