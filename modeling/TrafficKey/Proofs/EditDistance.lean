import Mathlib.Order.Bounds.Basic
import Mathlib.Order.MinMax
import TrafficKey.Text.Distance

/-!
# The distance of two texts counts edits

A script turns one text into another by single-character edits, one after the other, each at any place.
The length of the shortest script obeys the recursion `cost` on the first characters, and the rows that
`distance` computes hold this cost for the beginnings of the two texts, read backwards. Scripts can be
reversed and read backwards, so it does not matter along which of the texts the rows run.
-/

namespace TrafficKey.Text

/-! ## Scripts -/

/-- One edit: a character is inserted, deleted, or put in the place of another. -/
inductive Edit : List Char → List Char → Prop
  | insert (before after : List Char) (c : Char) : Edit (before ++ after) (before ++ c :: after)
  | delete (before after : List Char) (c : Char) : Edit (before ++ c :: after) (before ++ after)
  | substitute (before after : List Char) (c d : Char) :
      Edit (before ++ c :: after) (before ++ d :: after)

/-- A script of `n` edits that turns one text into another. -/
inductive Script : Nat → List Char → List Char → Prop
  | nil (a : List Char) : Script 0 a a
  | snoc {n : Nat} {a b c : List Char} (script : Script n a b) (edit : Edit b c) :
      Script (n + 1) a c

variable {n : Nat} {a b : List Char}

theorem Edit.symm (h : Edit a b) : Edit b a := by
  cases h with
  | insert before after c => exact .delete before after c
  | delete before after c => exact .insert before after c
  | substitute before after c d => exact .substitute before after d c

theorem Edit.reverse (h : Edit a b) : Edit a.reverse b.reverse := by
  cases h with
  | insert before after c => simpa using Edit.insert after.reverse before.reverse c
  | delete before after c => simpa using Edit.delete after.reverse before.reverse c
  | substitute before after c d => simpa using Edit.substitute after.reverse before.reverse c d

theorem Edit.cons (x : Char) (h : Edit a b) : Edit (x :: a) (x :: b) := by
  cases h with
  | insert before after c => exact .insert (x :: before) after c
  | delete before after c => exact .delete (x :: before) after c
  | substitute before after c d => exact .substitute (x :: before) after c d

namespace Script

theorem cons_edit {c : List Char} (edit : Edit a b) (h : Script n b c) : Script (n + 1) a c := by
  induction h with
  | nil b => exact .snoc (.nil a) edit
  | snoc _ last ih => exact .snoc (ih edit) last

theorem symm (h : Script n a b) : Script n b a := by
  induction h with
  | nil a => exact .nil a
  | snoc _ edit ih => exact cons_edit edit.symm ih

theorem reverse (h : Script n a b) : Script n a.reverse b.reverse := by
  induction h with
  | nil a => exact .nil a.reverse
  | snoc _ edit ih => exact .snoc ih edit.reverse

theorem comm : Script n a b ↔ Script n b a :=
  ⟨symm, symm⟩

theorem reverse_iff : Script n a.reverse b.reverse ↔ Script n a b := by
  constructor
  · intro h
    simpa using h.reverse
  · exact reverse

/-- A script can leave a first character alone. -/
theorem cons (x : Char) (h : Script n a b) : Script n (x :: a) (x :: b) := by
  induction h with
  | nil a => exact .nil (x :: a)
  | snoc _ edit ih => exact .snoc ih (edit.cons x)

theorem insertAll (b : List Char) : Script b.length [] b := by
  induction b with
  | nil => exact .nil []
  | cons d b ih => exact .snoc ih (.insert [] b d)

end Script

/-! ## The recursion on first characters -/

/-- The least number of edits, by what becomes of the two first characters. -/
def cost : List Char → List Char → Nat
  | [], b => b.length
  | a, [] => a.length
  | c :: a, d :: b =>
    min (min (cost a (d :: b) + 1) (cost (c :: a) b + 1)) (cost a b + if c = d then 0 else 1)
termination_by a b => a.length + b.length

@[simp] theorem cost_nil_left (b : List Char) : cost [] b = b.length := by
  rw [cost]

@[simp] theorem cost_nil_right (a : List Char) : cost a [] = a.length := by
  cases a with
  | nil => rw [cost]
  | cons c a => rw [cost]; simp

theorem cost_cons_cons (c d : Char) (a b : List Char) :
    cost (c :: a) (d :: b) =
      min (min (cost a (d :: b) + 1) (cost (c :: a) b + 1)) (cost a b + if c = d then 0 else 1) := by
  rw [cost]

/-- The cost is the length of some script. -/
theorem script_cost (a b : List Char) : Script (cost a b) a b := by
  fun_induction cost a b with
  | case1 b => exact .insertAll b
  | case2 a => exact (Script.insertAll a).symm
  | case3 c a d b hdelete hinsert hkeep =>
    rcases min_choice (min (cost a (d :: b) + 1) (cost (c :: a) b + 1))
      (cost a b + if c = d then 0 else 1) with hmin | hmin
    · rw [hmin]
      rcases min_choice (cost a (d :: b) + 1) (cost (c :: a) b + 1) with hmin | hmin
      · rw [hmin]
        exact .cons_edit (.delete [] a c) hdelete
      · rw [hmin]
        exact .snoc hinsert (.insert [] b d)
    · rw [hmin]
      by_cases hcd : c = d
      · rw [if_pos hcd, hcd]
        exact hkeep.cons d
      · rw [if_neg hcd]
        exact .snoc (hkeep.cons c) (.substitute [] b c d)

theorem cost_self (a : List Char) : cost a a = 0 := by
  induction a with
  | nil => simp
  | cons c a ih => simp [cost_cons_cons, ih]

theorem cost_cons_left_le (c : Char) (a b : List Char) : cost (c :: a) b ≤ cost a b + 1 := by
  cases b with
  | nil => simp
  | cons d b =>
    rw [cost_cons_cons]
    omega

theorem cost_cons_right_le (d : Char) (a b : List Char) : cost a (d :: b) ≤ cost a b + 1 := by
  cases a with
  | nil => simp
  | cons c a =>
    rw [cost_cons_cons]
    omega

theorem cost_cons_cons_le (c d : Char) (a b : List Char) :
    cost (c :: a) (d :: b) ≤ cost a b + 1 := by
  rw [cost_cons_cons]
  split <;> omega

theorem le_cost_cons_right (d : Char) (a b : List Char) : cost a b ≤ cost a (d :: b) + 1 := by
  induction a with
  | nil => simp; omega
  | cons c a ih =>
    have hc := cost_cons_left_le c a b
    rw [cost_cons_cons]
    omega

theorem cost_substitute_le (d e : Char) (a b : List Char) :
    cost a (e :: b) ≤ cost a (d :: b) + 1 := by
  induction a with
  | nil => simp
  | cons c a ih =>
    have hdelete := cost_cons_left_le c a (e :: b)
    have hinsert := cost_cons_right_le e (c :: a) b
    have hsubstitute := cost_cons_cons_le c e a b
    rw [cost_cons_cons c d]
    omega

/-- What an edit can change of the cost stays as it is behind a first character. -/
theorem cost_cons_le_of_le (d : Char) {b b' : List Char} (h : ∀ a, cost a b' ≤ cost a b + 1)
    (a : List Char) : cost a (d :: b') ≤ cost a (d :: b) + 1 := by
  induction a with
  | nil => simpa using h []
  | cons c a ih =>
    have hinsert := h (c :: a)
    have hkeep := h a
    rw [cost_cons_cons, cost_cons_cons]
    omega

/-- An edit changes the cost by one at most. -/
theorem cost_le_of_edit {b b' : List Char} (h : Edit b b') (a : List Char) :
    cost a b' ≤ cost a b + 1 := by
  -- at the edited place the three kinds of edits differ, before it they do not
  cases h with
  | insert before after c =>
    induction before generalizing a with
    | nil => exact cost_cons_right_le c a after
    | cons x before ih => exact cost_cons_le_of_le x ih a
  | delete before after c =>
    induction before generalizing a with
    | nil => exact le_cost_cons_right c a after
    | cons x before ih => exact cost_cons_le_of_le x ih a
  | substitute before after c d =>
    induction before generalizing a with
    | nil => exact cost_substitute_le c d a after
    | cons x before ih => exact cost_cons_le_of_le x ih a

/-- No script is shorter than the cost. -/
theorem cost_le_of_script (h : Script n a b) : cost a b ≤ n := by
  induction h with
  | nil a => rw [cost_self]
  | @snoc n a b c _ edit ih =>
    have hstep := cost_le_of_edit edit a
    omega

theorem isLeast_cost (a b : List Char) : IsLeast {n | Script n a b} (cost a b) :=
  ⟨script_cost a b, fun _ h => cost_le_of_script h⟩

/-! ## Rows -/

/-- The costs from `p` to `r`, and to `r` with more and more of the given characters in front of it. -/
def costsAlong (p : List Char) : List Char → List Char → List Nat
  | r, [] => [cost p r]
  | r, b :: bs => cost p r :: costsAlong p (b :: r) bs

theorem costsAlong_nil (r bs : List Char) :
    costsAlong [] r bs = List.range' r.length (bs.length + 1) := by
  induction bs generalizing r with
  | nil => simp [costsAlong]
  | cons b bs ih => simp [costsAlong, ih, List.range'_succ]

theorem costsAlong_eq_cons (p r bs : List Char) :
    costsAlong p r bs = cost p r :: (costsAlong p r bs).tail := by
  cases bs <;> rfl

theorem getLastD_costsAlong (p r bs : List Char) :
    (costsAlong p r bs).getLastD 0 = cost p (bs.reverse ++ r) := by
  induction bs generalizing r with
  | nil => rfl
  | cons b bs ih =>
    have hlast : (costsAlong p r (b :: bs)).getLastD 0 = (costsAlong p (b :: r) bs).getLastD 0 := by
      rw [costsAlong, costsAlong_eq_cons p (b :: r)]
      simp
    rw [hlast, ih]
    simp

/-- Each entry of a row is found from its three neighbours, as the recursion on first characters has it
for the texts read backwards. -/
theorem fillRow_costsAlong (c : Char) (p r bs : List Char) :
    cost (c :: p) r :: fillRow c (cost (c :: p) r) bs (costsAlong p r bs) =
      costsAlong (c :: p) r bs := by
  induction bs generalizing r with
  | nil => rfl
  | cons b bs ih =>
    have hentry : min (min (cost p (b :: r) + 1) (cost (c :: p) r + 1))
        (cost p r + if c = b then 0 else 1) = cost (c :: p) (b :: r) :=
      (cost_cons_cons c b p r).symm
    have hrest := ih (b :: r)
    rw [costsAlong_eq_cons p (b :: r)] at hrest
    rw [costsAlong, costsAlong, costsAlong_eq_cons p (b :: r), fillRow, hentry, hrest]

theorem nextRow_costsAlong (c : Char) (p b : List Char) :
    nextRow c b (costsAlong p [] b) = costsAlong (c :: p) [] b := by
  have hfirst : (costsAlong p [] b).headD 0 + 1 = cost (c :: p) [] := by
    rw [costsAlong_eq_cons]
    simp
  unfold nextRow
  rw [hfirst]
  exact fillRow_costsAlong c p [] b

/-- After any characters the row holds the costs for these characters. -/
theorem foldl_nextRow (a p b : List Char) :
    a.foldl (fun row c => nextRow c b row) (costsAlong p [] b) =
      costsAlong (a.reverse ++ p) [] b := by
  induction a generalizing p with
  | nil => rfl
  | cons c a ih =>
    rw [List.foldl_cons, nextRow_costsAlong, ih]
    simp

theorem lastRow_eq (a b : List Char) : lastRow a b = costsAlong a.reverse [] b := by
  have hstart : List.range (b.length + 1) = costsAlong [] [] b := by
    rw [costsAlong_nil, List.range_eq_range']
    rfl
  unfold lastRow
  rw [hstart, foldl_nextRow, List.append_nil]

theorem getLastD_lastRow (a b : List Char) :
    (lastRow a b).getLastD 0 = cost a.reverse b.reverse := by
  rw [lastRow_eq, getLastD_costsAlong, List.append_nil]

/-- The last entry of the last row is the length of the shortest script. -/
theorem isLeast_lastRow (a b : List Char) :
    IsLeast {n | Script n a b} ((lastRow a b).getLastD 0) := by
  have hsame : {n | Script n a b} = {n | Script n a.reverse b.reverse} :=
    Set.ext fun _ => Script.reverse_iff.symm
  rw [getLastD_lastRow, hsame]
  exact isLeast_cost a.reverse b.reverse

/-- **The distance is the least number of edits.** Some script of that many single-character insertions,
deletions and substitutions turns the first text into the second, and no script that does is shorter,
whichever of the texts is the longer one. -/
theorem distance_isLeast (a b : List Char) : IsLeast {n | Script n a b} (distance a b) := by
  unfold distance
  split
  · -- the rows run along the first text, and the scripts are followed back
    have hsame : {n | Script n a b} = {n | Script n b a} := Set.ext fun _ => Script.comm
    rw [hsame]
    exact isLeast_lastRow b a
  · exact isLeast_lastRow a b

example : distance "asn".toList "country".toList = 6 := by decide

end TrafficKey.Text
