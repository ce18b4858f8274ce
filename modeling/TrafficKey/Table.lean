/-!
# Tables of named entries

An ordered table whose entries have pairwise distinct names. Key names and functions are both kept in
such a table; adding entries makes a new table and fails on the first repeated name.
-/

namespace TrafficKey

/-- Things that have a name to be looked up by. -/
class Named (α : Type) where
  nameOf : α → String

/-- The first name of the list that already occurred, either in `seen` or earlier in the list. -/
def firstRepeat? : List String → List String → Option String
  | _, [] => none
  | seen, n :: ns => if n ∈ seen then some n else firstRepeat? (n :: seen) ns

theorem firstRepeat?_eq_none_iff (seen names : List String) :
    firstRepeat? seen names = none ↔ names.Nodup ∧ ∀ n ∈ names, n ∉ seen := by
  induction names generalizing seen with
  | nil => simp [firstRepeat?]
  | cons n ns ih =>
    by_cases h : n ∈ seen
    · simp [firstRepeat?, h]
    · simp only [firstRepeat?, h, if_false, ih, List.nodup_cons, List.mem_cons]
      constructor
      · rintro ⟨hd, hs⟩
        refine ⟨⟨fun hn => hs n hn (Or.inl rfl), hd⟩, ?_⟩
        rintro m (rfl | hm)
        · exact h
        · exact fun hms => hs m hm (Or.inr hms)
      · rintro ⟨⟨hn, hd⟩, hs⟩
        refine ⟨hd, fun m hm hor => ?_⟩
        rcases hor with rfl | hms
        · exact hn hm
        · exact hs m (Or.inr hm) hms

/-- An ordered table of entries with distinct names. -/
structure Table (α : Type) [Named α] where
  entries : List α
  distinct : (entries.map Named.nameOf).Nodup

namespace Table

variable {α : Type} [Named α]

/-- The table without entries. -/
def empty : Table α := ⟨[], List.nodup_nil⟩

/-- The entry of a name. -/
def lookup (t : Table α) (name : String) : Option α :=
  t.entries.find? (Named.nameOf · == name)

/-- The names of the entries, in order. -/
def names (t : Table α) : List String :=
  t.entries.map Named.nameOf

/-- The number of entries. -/
def size (t : Table α) : Nat :=
  t.entries.length

/-- The table of the given entries, or the first name that is repeated among them. -/
def ofList (entries : List α) : Except String (Table α) :=
  match h : firstRepeat? [] (entries.map Named.nameOf) with
  | none => .ok ⟨entries, ((firstRepeat?_eq_none_iff [] _).1 h).1⟩
  | some name => .error name

/-- The table with more entries at its end, or the first name that would be repeated. -/
def extend (t : Table α) (more : List α) : Except String (Table α) :=
  ofList (t.entries ++ more)

end Table

end TrafficKey
