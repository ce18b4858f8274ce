import TrafficKey.Suggestion

/-!
# Suggestions have one order

Candidates are ranked by distance and then by name, which is a linear order. So the ranking of some
candidates, and with it the suggestions cut off it, does not depend on the order in which the
candidates are listed.
-/

namespace TrafficKey.Suggestion

namespace Scored

theorem le_iff {a b : Scored} :
    a.le b = true ↔ a.distance < b.distance ∨ a.distance = b.distance ∧ a.name ≤ b.name := by
  simp [Scored.le]

theorem le_trans {a b c : Scored} (hab : a.le b = true) (hbc : b.le c = true) :
    a.le c = true := by
  rw [le_iff] at hab hbc ⊢
  rcases hab with hab | ⟨hab, hname⟩
  · rcases hbc with hbc | ⟨hbc, _⟩
    · left
      omega
    · left
      omega
  · rcases hbc with hbc | ⟨hbc, hname'⟩
    · left
      omega
    · exact Or.inr ⟨hab.trans hbc, String.le_trans hname hname'⟩

theorem le_total (a b : Scored) : (a.le b || b.le a) = true := by
  rw [Bool.or_eq_true, le_iff, le_iff]
  rcases Nat.lt_trichotomy a.distance b.distance with h | h | h
  · exact Or.inl (Or.inl h)
  · rcases String.le_total a.name b.name with hname | hname
    · exact Or.inl (Or.inr ⟨h, hname⟩)
    · exact Or.inr (Or.inr ⟨h.symm, hname⟩)
  · exact Or.inr (Or.inl h)

theorem le_antisymm {a b : Scored} (hab : a.le b = true) (hba : b.le a = true) : a = b := by
  rw [le_iff] at hab hba
  have hdistance : a.distance = b.distance := by omega
  have hname : a.name = b.name := by
    rcases hab with hlt | ⟨_, hab⟩
    · omega
    · rcases hba with hlt | ⟨_, hba⟩
      · omega
      · exact String.le_antisymm hab hba
  cases a
  cases b
  simp_all

end Scored

variable {name : String} {candidates candidates' : List String}

/-- Closer names come first in a ranking. -/
theorem pairwise_ranked (name : String) (candidates : List String) (maxDistance : Int) :
    (ranked name candidates maxDistance).Pairwise fun a b => a.le b = true := by
  unfold ranked
  apply List.pairwise_mergeSort
  · intro a b c hab hbc
    exact Scored.le_trans hab hbc
  · intro a b
    exact Scored.le_total a b

/-- The same candidates in another order are ranked alike. -/
theorem ranked_perm (h : candidates.Perm candidates') (maxDistance : Int) :
    ranked name candidates maxDistance = ranked name candidates' maxDistance := by
  -- both are sorted, and what is sorted is the same up to order
  have hscored := ((h.filter (· ≠ name)).map
    fun c => (⟨nameDistance name c, c⟩ : Scored)).filter fun s => (s.distance : Int) ≤ maxDistance
  refine List.Perm.eq_of_pairwise (fun _ _ _ _ => Scored.le_antisymm)
    (pairwise_ranked name candidates maxDistance) (pairwise_ranked name candidates' maxDistance) ?_
  exact (List.mergeSort_perm _ _).trans (hscored.trans (List.mergeSort_perm _ _).symm)

theorem similar_perm (h : candidates.Perm candidates') (maxDistance limit : Int) :
    similar name candidates maxDistance limit = similar name candidates' maxDistance limit := by
  unfold similar
  rw [ranked_perm h]

/-- The suggestions of a diagnostic depend on which names are known, not on their order. -/
theorem closest_perm (h : candidates.Perm candidates') :
    closest name candidates = closest name candidates' :=
  similar_perm h 3 3

end TrafficKey.Suggestion
