/-!
# Edit distance

The least number of single-character insertions, deletions and substitutions that turn one text into
another, computed row by row: row `i` holds the distances of the first `i` characters of the longer text
to every beginning of the shorter one.
-/

namespace TrafficKey.Text

/-- The rest of the next row. `c` is the character that the row adds, `left` the entry just
written, `b` the characters still to match, and the last argument is the row above from the entry
diagonally above on. -/
def fillRow (c : Char) : Nat → List Char → List Nat → List Nat
  | left, b :: bs, diagonal :: above :: row =>
    let entry := min (min (above + 1) (left + 1)) (diagonal + if c = b then 0 else 1)
    entry :: fillRow c entry bs (above :: row)
  | _, _, _ => []

/-- The row after `row`, for the character `c`. -/
def nextRow (c : Char) (b : List Char) (row : List Nat) : List Nat :=
  let first := row.headD 0 + 1
  first :: fillRow c first b row

/-- The row after all of `a`: its distances to every beginning of `b`. -/
def lastRow (a b : List Char) : List Nat :=
  a.foldl (fun row c => nextRow c b row) (List.range (b.length + 1))

/-- The number of single-character edits that turn `a` into `b`. The rows are as long as the shorter
text. -/
def distance (a b : List Char) : Nat :=
  if a.length < b.length then (lastRow b a).getLastD 0 else (lastRow a b).getLastD 0

end TrafficKey.Text
