/-!
# Blank characters, trimming and words

The characters that count as blank, what is left of a line without the blanks around it, and its
words. Everything works on lists of characters, so that an offset is a length.
-/

namespace TrafficKey.Text

/-- The blank characters: the ASCII tabulators, line ends and separators, and the spaces, line
separator and paragraph separator of Unicode. The zero-width space and the byte-order mark are not
blank. -/
def isBlank (c : Char) : Bool :=
  let n := c.toNat
  (9 ≤ n && n ≤ 13) || (28 ≤ n && n ≤ 32) || n == 0x85 || n == 0xA0 || n == 0x1680 ||
    (0x2000 ≤ n && n ≤ 0x200A) || n == 0x2028 || n == 0x2029 || n == 0x202F || n == 0x205F ||
    n == 0x3000

/-- The line without its leading blanks. -/
def trimLeft (cs : List Char) : List Char :=
  cs.dropWhile isBlank

/-- The line without its trailing blanks. -/
def trimRight (cs : List Char) : List Char :=
  (cs.reverse.dropWhile isBlank).reverse

/-- The line without the blanks around it. -/
def trim (cs : List Char) : List Char :=
  trimRight (trimLeft cs)

/-- How many blanks the line starts with. -/
def indent (cs : List Char) : Nat :=
  (cs.takeWhile isBlank).length

/-- `trim` for strings. -/
def trimmed (s : String) : String :=
  String.ofList (trim s.toList)

/-- `trimRight` for strings. -/
def trimmedRight (s : String) : String :=
  String.ofList (trimRight s.toList)

/-- Cuts the line into its words; `word` holds, last character first, the word being read. -/
def wordsFrom : List Char → List Char → List (List Char)
  | word, [] => if word.isEmpty then [] else [word.reverse]
  | word, c :: cs =>
    if isBlank c then
      if word.isEmpty then wordsFrom [] cs else word.reverse :: wordsFrom [] cs
    else wordsFrom (c :: word) cs

/-- The words of a line: its maximal runs of non-blank characters. -/
def words (s : String) : List String :=
  (wordsFrom [] s.toList).map String.ofList

/-- The first word of a line and what follows the blanks after it, or `none` for a blank line. -/
def firstWord? (s : String) : Option (String × String) :=
  match trimLeft s.toList with
  | [] => none
  | cs =>
    some (String.ofList (cs.takeWhile (!isBlank ·)),
      String.ofList (trimLeft (cs.dropWhile (!isBlank ·))))

/-- Joins the parts with `sep` between each two. -/
def join (sep : String) (parts : List String) : String :=
  String.intercalate sep parts

end TrafficKey.Text
