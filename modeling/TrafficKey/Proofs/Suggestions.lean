import TrafficKey.Proofs.Ranking
import TrafficKey.Proofs.Refusals

/-!
# Suggestions are the best candidates

The suggestions for a name are the first of the candidates that can be suggested at all, in the order of
the ranking: nothing that is left out stands before something that is suggested. Diagnostics of unknown
names carry the suggestions among the names of the table that was looked up, so these are known names,
few of them, and never the unknown one.
-/

namespace TrafficKey

namespace Suggestion

/-- The candidates that can be suggested for a name, each as often as it is listed: other names, at most
so many edits away. -/
def eligible (name : String) (candidates : List String) (maxDistance : Int) : List String :=
  candidates.filter fun c => c ≠ name ∧ (nameDistance name c : Int) ≤ maxDistance

/-- Among the suggestions for a name, `a` stands no later than `b`: it is closer, or as close and no later
in the order of names. -/
def NoLater (name a b : String) : Prop :=
  nameDistance name a < nameDistance name b ∨
    nameDistance name a = nameDistance name b ∧ a ≤ b

/-- These are the best candidates for a name: as many of those that can be suggested as the limit allows,
in order, and none of the others stands before one of them. -/
structure IsBest (name : String) (candidates : List String) (maxDistance : Int) (limit : Nat)
    (found : List String) : Prop where
  length_eq : found.length = min limit (eligible name candidates maxDistance).length
  ordered : found.Pairwise (NoLater name)
  others : ∃ left, (found ++ left).Perm (eligible name candidates maxDistance) ∧
    ∀ kept ∈ found, ∀ other ∈ left, NoLater name kept other

/-- At most three suggestions, each of them a known name other than the unknown one. -/
structure Helpful (names : List String) (unknown : String) (suggestions : List String) : Prop where
  length_le : suggestions.length ≤ 3
  known : ∀ s ∈ suggestions, s ∈ names ∧ s ≠ unknown

variable {name : String} {candidates : List String} {maxDistance limit : Int}

/-! ## The ranking in names -/

theorem distance_of_mem_ranked {s : Scored} (h : s ∈ ranked name candidates maxDistance) :
    s.distance = nameDistance name s.name := by
  unfold ranked at h
  rw [List.mem_mergeSort, List.mem_filter, List.mem_map] at h
  obtain ⟨⟨c, -, hs⟩, -⟩ := h
  rw [← hs]

theorem ranked_names_perm (name : String) (candidates : List String) (maxDistance : Int) :
    ((ranked name candidates maxDistance).map (·.name)).Perm
      (eligible name candidates maxDistance) := by
  unfold ranked
  refine ((List.mergeSort_perm _ _).map _).trans (List.Perm.of_eq ?_)
  -- without the order there is only the choice among the candidates, made in two steps
  have hnames : (Scored.name ∘ fun c => ⟨nameDistance name c, c⟩) = id := rfl
  rw [List.filter_map, List.map_map, hnames, List.map_id, List.filter_filter]
  refine List.filter_congr fun c _ => ?_
  rw [Function.comp_apply, Bool.and_comm, Bool.decide_and]

theorem pairwise_ranked_names (name : String) (candidates : List String) (maxDistance : Int) :
    ((ranked name candidates maxDistance).map (·.name)).Pairwise (NoLater name) := by
  rw [List.pairwise_map]
  refine (pairwise_ranked name candidates maxDistance).imp_of_mem ?_
  intro a b ha hb hab
  rw [Scored.le_iff, distance_of_mem_ranked ha, distance_of_mem_ranked hb] at hab
  exact hab

theorem similar_eq_take (h : 0 ≤ limit) :
    similar name candidates maxDistance limit =
      ((ranked name candidates maxDistance).map (·.name)).take limit.toNat := by
  unfold similar takeLimit
  rw [if_pos h]

/-- The suggestions are a beginning of the ranking, and what is left out is the rest of it. -/
theorem isBest_similar (name : String) (candidates : List String) (maxDistance : Int)
    (h : 0 ≤ limit) :
    IsBest name candidates maxDistance limit.toNat (similar name candidates maxDistance limit) := by
  have hperm := ranked_names_perm name candidates maxDistance
  have hordered := pairwise_ranked_names name candidates maxDistance
  rw [← List.take_append_drop limit.toNat ((ranked name candidates maxDistance).map (·.name))]
    at hperm hordered
  rw [← similar_eq_take h] at hperm hordered
  rw [List.pairwise_append] at hordered
  refine ⟨?_, hordered.1, _, hperm, hordered.2.2⟩
  rw [similar_eq_take h, List.length_take, (ranked_names_perm name candidates maxDistance).length_eq]

theorem IsBest.mem_eligible {found : List String} {limit : Nat}
    (h : IsBest name candidates maxDistance limit found) {s : String} (hs : s ∈ found) :
    s ∈ eligible name candidates maxDistance := by
  obtain ⟨left, hperm, -⟩ := h.others
  exact hperm.mem_iff.1 (List.mem_append_left left hs)

/-- The suggestions of a diagnostic help. -/
theorem helpful_closest (unknown : String) (names : List String) :
    Helpful names unknown (closest unknown names) := by
  have hlimit : (0 : Int) ≤ 3 := by decide
  have hbest : IsBest unknown names 3 3 (closest unknown names) :=
    isBest_similar unknown names 3 hlimit
  constructor
  · rw [hbest.length_eq]
    omega
  · intro s hs
    have heligible := List.mem_filter.1 (hbest.mem_eligible hs)
    simp only [decide_eq_true_eq] at heligible
    exact ⟨heligible.1, heligible.2.1⟩

end Suggestion

/-! ## Diagnostics -/

/-- The suggestions of the diagnostic, if it has any, are the closest names of the table that was looked
up. -/
def Diagnostic.SuggestsFrom (t : Tables) : Diagnostic → Prop
  | .unknownName name _ suggestions => suggestions = Suggestion.closest name t.catalog.names
  | .unknownFunction name _ suggestions => suggestions = Suggestion.closest name t.registry.names
  | _ => True

namespace Direct

variable {t : Tables} {line : String} {s : State} {token : Token} {r : Rejection} {d : Diagnostic}

theorem Refusal.suggestsFrom (h : Refusal t s token r) : r.diagnostic.SuggestsFrom t := by
  cases h with
  | misfit _ | tooDeep _ _ _ | arity _ _ => trivial
  | unknownFunction _ _ _ | unknownName _ _ | unknownArgument _ _ _ => exact rfl

theorem Shortfall.suggestsFrom {stop : Int} (h : Shortfall t stop s r) :
    r.diagnostic.SuggestsFrom t := by
  cases h with
  | empty | afterComma | afterColon | unclosed _ | functionName | colonAfterName | arity _ =>
    trivial
  | unknownName _ => exact rfl

/-- Wherever a line is refused, the suggestions come from the tables it was read with. -/
theorem suggestsFrom_of_parse (h : parse t line = .error d) : d.SuggestsFrom t := by
  rcases parse_eq_error h with ⟨u, _, rfl⟩ | ⟨tokens, r, _, hread, rfl⟩
  · trivial
  · rcases readAll_eq_error_iff.1 hread with ⟨_, _, _, _, _, _, hrefused⟩ | ⟨_, _, hshort⟩
    · exact hrefused.suggestsFrom
    · exact hshort.suggestsFrom

end Direct

namespace Suggestion

/-- **Suggestions are the best ones.** They are the first of the candidates that can be suggested, as many
as the limit allows, in the order of distance and name; nothing that is left out stands before one of
them, and the order in which the candidates are listed does not matter. So the diagnostic of an unknown
name or function carries the best names of the table that was looked up: at most three, all of them
known and none the unknown name itself. -/
theorem similar_best {limit : Int} (hlimit : 0 ≤ limit) (name : String) (candidates : List String)
    (maxDistance : Int) :
    IsBest name candidates maxDistance limit.toNat (similar name candidates maxDistance limit) ∧
      (∀ candidates', candidates'.Perm candidates →
        similar name candidates' maxDistance limit = similar name candidates maxDistance limit) ∧
      ∀ (t : Tables) (line unknown : String) (offset : Int) (suggestions : List String),
        (Direct.parse t line = .error (.unknownName unknown offset suggestions) →
          suggestions = similar unknown t.catalog.names 3 3 ∧
            Helpful t.catalog.names unknown suggestions) ∧
        (Direct.parse t line = .error (.unknownFunction unknown offset suggestions) →
          suggestions = similar unknown t.registry.names 3 3 ∧
            Helpful t.registry.names unknown suggestions) := by
  refine ⟨isBest_similar name candidates maxDistance hlimit, ?_, ?_⟩
  · intro candidates' hperm
    exact similar_perm hperm maxDistance limit
  · intro t line unknown offset suggestions
    constructor
    · intro h
      have hclosest : suggestions = closest unknown t.catalog.names :=
        Direct.suggestsFrom_of_parse h
      refine ⟨hclosest, ?_⟩
      rw [hclosest]
      exact helpful_closest unknown t.catalog.names
    · intro h
      have hclosest : suggestions = closest unknown t.registry.names :=
        Direct.suggestsFrom_of_parse h
      refine ⟨hclosest, ?_⟩
      rw [hclosest]
      exact helpful_closest unknown t.registry.names

/-- A candidate that is listed twice is suggested twice, and the name itself never is. -/
theorem similar_best_repeated :
    similar "ip6tt" ["ip6tos", "ip6ttl", "ip6tt", "ip6ecn", "ip6ttl"] 2 3 =
        ["ip6ttl", "ip6ttl", "ip6tos"] ∧
      IsBest "ip6tt" ["ip6tos", "ip6ttl", "ip6tt", "ip6ecn", "ip6ttl"] 2 3
        ["ip6ttl", "ip6ttl", "ip6tos"] ∧
      Direct.parse .builtin "or:ip6ttl:[ans:x]" =
        .error (.unknownFunction "ans" 11 ["asn", "or"]) ∧
      Helpful Tables.builtin.registry.names "ans" ["asn", "or"] := by
  have hlimit : (0 : Int) ≤ 3 := by decide
  have hsimilar : similar "ip6tt" ["ip6tos", "ip6ttl", "ip6tt", "ip6ecn", "ip6ttl"] 2 3 =
      ["ip6ttl", "ip6ttl", "ip6tos"] := by
    cbv
  have hparse : Direct.parse .builtin "or:ip6ttl:[ans:x]" =
      .error (.unknownFunction "ans" 11 ["asn", "or"]) := by
    cbv
  have hbest := similar_best hlimit "ip6tt" ["ip6tos", "ip6ttl", "ip6tt", "ip6ecn", "ip6ttl"] 2
  have hhelpful := ((hbest.2.2 .builtin _ _ _ _).2 hparse).2
  rw [hsimilar] at hbest
  exact ⟨hsimilar, hbest.1, hparse, hhelpful⟩

end Suggestion

end TrafficKey
