import TrafficKey.Text.Blank

/-!
# Cutting texts at a character

A text is cut at each occurrence of a character. Joining the parts with that character gives the text
back, so there is always one part more than there are occurrences.
-/

namespace TrafficKey.Text

/-- The parts of a text between the occurrences of `sep`; there is at least one. -/
def splitChars (sep : Char) : List Char → List (List Char)
  | [] => [[]]
  | c :: cs =>
    if c = sep then [] :: splitChars sep cs
    else
      match splitChars sep cs with
      | [] => [[c]]
      | part :: parts => (c :: part) :: parts

theorem splitChars_ne_nil (sep : Char) (cs : List Char) : splitChars sep cs ≠ [] := by
  cases cs with
  | nil => simp [splitChars]
  | cons c cs =>
    unfold splitChars
    split
    · simp
    · split <;> simp

/-- The parts put together again. -/
theorem intercalate_splitChars (sep : Char) (cs : List Char) :
    List.intercalate [sep] (splitChars sep cs) = cs := by
  induction cs with
  | nil => rfl
  | cons c cs ih =>
    by_cases h : c = sep
    · cases hs : splitChars sep cs with
      | nil => exact absurd hs (splitChars_ne_nil sep cs)
      | cons part parts =>
        rw [hs] at ih
        simp [splitChars, h, hs, List.intercalate] at ih ⊢
        exact ih
    · cases hs : splitChars sep cs with
      | nil => exact absurd hs (splitChars_ne_nil sep cs)
      | cons part parts =>
        rw [hs] at ih
        cases parts with
        | nil => simp_all [splitChars, List.intercalate, List.intersperse]
        | cons p ps => simp_all [splitChars, List.intercalate, List.intersperse]

/-- `splitChars` for strings. -/
def split (sep : Char) (s : String) : List String :=
  (splitChars sep s.toList).map String.ofList

/-- The characters that end a line of a text. -/
def endsLine (c : Char) : Bool :=
  let n := c.toNat
  (10 ≤ n && n ≤ 13) || (28 ≤ n && n ≤ 30) || n == 0x85 || n == 0x2028 || n == 0x2029

/-- The first line of a text. -/
def firstLine (s : String) : String :=
  String.ofList (s.toList.takeWhile (!endsLine ·))

end TrafficKey.Text
