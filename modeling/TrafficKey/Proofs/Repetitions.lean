import TrafficKey.Proofs.LooseViews

/-!
# Warnings are the repetitions

The warnings of a definition are described by what is repeated in it: a key that is the same as an
earlier one, and a label that its group call has listed before. The checks go through the keys once and
remember what they have seen: of each key the place where it stood first, and the labels of the call at
hand. So a key is compared with its first occurrence, and there are as many warnings as there are keys
and labels beyond the distinct ones.
-/

namespace TrafficKey

/-! ## What stood before -/

section

variable {α : Type} [DecidableEq α]

/-- The elements of a list that already stand earlier in it, in order. -/
def repeated (l : List α) : List α :=
  (l.zipIdx.filter fun p => p.1 ∈ l.take p.2).map Prod.fst

theorem repeated_concat (l : List α) (x : α) :
    repeated (l ++ [x]) = repeated l ++ if x ∈ l then [x] else [] := by
  have hearlier : (l.zipIdx.filter fun p => p.1 ∈ (l ++ [x]).take p.2) =
      l.zipIdx.filter fun p => p.1 ∈ l.take p.2 := by
    refine List.filter_congr fun p hp => ?_
    have hlt : p.2 < l.length := List.snd_lt_of_mem_zipIdx hp
    rw [List.take_append_of_le_length (Nat.le_of_lt hlt)]
  unfold repeated
  rw [List.zipIdx_append, List.filter_append, hearlier, List.map_append]
  congr 1
  by_cases hx : x ∈ l <;> simp [hx]

/-- Each element is repeated, or is one of the distinct ones. -/
theorem length_repeated_add_card (l : List α) :
    (repeated l).length + l.toFinset.card = l.length := by
  induction l using List.reverseRecOn with
  | nil => rfl
  | append_singleton l x ih =>
    have hset : (l ++ [x]).toFinset = insert x l.toFinset := by
      ext y
      simp
    rw [repeated_concat, hset, List.length_append, List.length_append, List.length_singleton]
    by_cases hx : x ∈ l
    · rw [if_pos hx, Finset.insert_eq_of_mem (List.mem_toFinset.2 hx), List.length_singleton]
      omega
    · rw [if_neg hx, Finset.card_insert_of_notMem (mt List.mem_toFinset.1 hx), List.length_nil]
      omega

theorem length_repeated (l : List α) : (repeated l).length = l.length - l.toFinset.card := by
  have h := length_repeated_add_card l
  omega

theorem length_repeated_eq_zero_iff {l : List α} : (repeated l).length = 0 ↔ l.Nodup := by
  have h := length_repeated_add_card l
  rw [List.card_toFinset] at h
  constructor
  · intro hzero
    have hdedup : l.dedup = l := (List.dedup_sublist l).eq_of_length (by omega)
    exact List.dedup_eq_self.1 hdedup
  · intro hnodup
    rw [List.dedup_eq_self.2 hnodup] at h
    omega

end

/-! ## Labels -/

/-- The labels seen so far are those before the labels at hand. -/
theorem Warning.map_repeated_append (index : Int) (labels : List String) :
    ∀ {seen done : List String}, (∀ label, label ∈ seen ↔ label ∈ done) →
      (repeated (done ++ labels)).map (Warning.repeatedLabel · index) =
        (repeated done).map (Warning.repeatedLabel · index) ++
          Warning.ofLabels index seen labels := by
  induction labels with
  | nil =>
    intro seen done _
    rw [List.append_nil, Warning.ofLabels, List.append_nil]
  | cons label labels ih =>
    intro seen done hseen
    have hnext : ∀ other, other ∈ label :: seen ↔ other ∈ done ++ [label] := by
      intro other
      rw [List.mem_cons, List.mem_append, List.mem_singleton, hseen, or_comm]
    have hrest := ih hnext
    rw [List.append_assoc, List.singleton_append, repeated_concat, List.map_append] at hrest
    rw [hrest, Warning.ofLabels, List.append_assoc]
    by_cases hlabel : label ∈ done
    · simp [hlabel, (hseen label).2 hlabel]
    · simp [hlabel, mt (hseen label).1 hlabel]

theorem Warning.ofLabels_eq (index : Int) (labels : List String) :
    Warning.ofLabels index [] labels =
      (repeated labels).map (Warning.repeatedLabel · index) := by
  have hnone : ∀ label : String, label ∈ [] ↔ label ∈ [] := fun _ => Iff.rfl
  exact (Warning.map_repeated_append index labels hnone).symm

/-! ## The same key -/

mutual

/-- The argument without the descriptions of its key names. -/
def Argument.undescribed : Argument → Argument
  | .literal value => .literal value
  | .key entry => .key ⟨entry.name, ""⟩
  | .nested callee args => .nested callee (Argument.undescribedAll args)

/-- The arguments without the descriptions of their key names. -/
def Argument.undescribedAll : List Argument → List Argument
  | [] => []
  | arg :: args => arg.undescribed :: Argument.undescribedAll args

end

mutual

theorem Argument.same_iff : ∀ a b : Argument, a.same b = true ↔ a.undescribed = b.undescribed
  | .nested f as, .nested g bs => by
    simp only [Argument.same, Argument.undescribed, Bool.and_eq_true, beq_iff_eq,
      Argument.nested.injEq]
    rw [Argument.sameAll_iff as bs]
  | .literal _, .literal _ | .literal _, .key _ | .literal _, .nested _ _
  | .key _, .literal _ | .key _, .key _ | .key _, .nested _ _
  | .nested _ _, .literal _ | .nested _ _, .key _ => by
    simp [Argument.same, Argument.undescribed]

theorem Argument.sameAll_iff : ∀ as bs : List Argument,
    Argument.sameAll as bs = true ↔ Argument.undescribedAll as = Argument.undescribedAll bs
  | [], [] | [], _ :: _ | _ :: _, [] => by
    simp [Argument.sameAll, Argument.undescribedAll]
  | a :: as, b :: bs => by
    simp only [Argument.sameAll, Argument.undescribedAll, Bool.and_eq_true, List.cons.injEq]
    rw [Argument.same_iff a b, Argument.sameAll_iff as bs]

end

namespace Key

theorem same_iff (a b : Key) :
    a.same b = true ↔ a.asArgument.undescribed = b.asArgument.undescribed := by
  rw [← Argument.same_iff]
  cases a <;> cases b <;> rfl

/-- Keys that differ in descriptions only are one key. -/
def setoid : Setoid Key where
  r a b := a.same b = true
  iseqv := {
    refl := fun a => (same_iff a a).2 rfl
    symm := fun h => (same_iff _ _).2 ((same_iff _ _).1 h).symm
    trans := fun h h' => (same_iff _ _).2 (((same_iff _ _).1 h).trans ((same_iff _ _).1 h')) }

instance : DecidableRel setoid.r := fun a b => inferInstanceAs (Decidable (a.same b = true))

/-- The key, whatever its descriptions are. -/
def identity (key : Key) : Quotient setoid :=
  Quotient.mk setoid key

instance : DecidableEq (Quotient setoid) := Quotient.decidableEq

theorem identity_eq_iff {a b : Key} : a.identity = b.identity ↔ a.same b = true :=
  Quotient.eq (r := setoid)

end Key

/-! ## Keys -/

namespace Key

/-- The warnings about the key at place `i` of these keys: that it repeats the first of the earlier
keys that is the same, if there is one, and then what its group calls repeat. -/
def repetitionsAt (keys : List Key) (i : Nat) (key : Key) : List Warning :=
  (((keys.take i).findIdx? (·.same key)).map fun first =>
      Warning.repeatedKey key.warningLabel first i).toList ++
    (key.calls.filter (·.callee.kind = .group)).flatMap fun call =>
      (repeated call.labels).map (Warning.repeatedLabel · i)

/-- Looking a key up among those seen gives its first place among those done. -/
def Remembers (seen : List (Key × Nat)) (done : List Key) : Prop :=
  ∀ key : Key, (seen.find? (·.1.same key)).map Prod.snd = done.findIdx? (·.same key)

variable {seen : List (Key × Nat)} {done : List Key} {key : Key}

theorem Remembers.snoc_new (h : Remembers seen done) (key : Key) :
    Remembers (seen ++ [(key, done.length)]) (done ++ [key]) := by
  intro other
  rw [List.find?_append, List.findIdx?_append, Option.map_or, h other]
  by_cases hsame : key.same other = true <;> simp [hsame]

/-- A key that was seen before does not change where any key stood first. -/
theorem Remembers.snoc_seen {first : Nat} (h : Remembers seen done)
    (hkey : done.findIdx? (·.same key) = some first) : Remembers seen (done ++ [key]) := by
  intro other
  rw [h other, List.findIdx?_append]
  cases hother : done.findIdx? (·.same other) with
  | some i => rfl
  | none =>
    have hany : done.any (·.same key) = true := by
      rw [← List.findIdx?_isSome, hkey]
      rfl
    obtain ⟨earlier, hmem, hsame⟩ := List.any_eq_true.1 hany
    have hnone : key.same other = false := by
      rw [Bool.eq_false_iff]
      intro hkeyOther
      -- the earlier key would have been found for the other one, too
      have htrans : earlier.same other = true := setoid.iseqv.trans hsame hkeyOther
      have hfalse := List.findIdx?_eq_none_iff.1 hother earlier hmem
      rw [htrans] at hfalse
      cases hfalse
    simp [hnone]

theorem labelWarnings_eq (key : Key) (i : Nat) :
    key.labelWarnings i =
      (key.calls.filter (·.callee.kind = .group)).flatMap fun call =>
        (repeated call.labels).map (Warning.repeatedLabel · i) := by
  unfold labelWarnings
  congr 1
  funext call
  exact Warning.ofLabels_eq i call.labels

/-- From a place on, the warnings are those about the keys from there on, one after the other. -/
theorem warningsFrom_eq (keys : List Key) :
    ∀ {seen : List (Key × Nat)} {done : List Key}, Remembers seen done →
      warningsFrom done.length seen keys =
        (keys.zipIdx done.length).flatMap fun p => p.1.repetitionsAt (done ++ keys) p.2 := by
  induction keys with
  | nil =>
    intro seen done _
    rfl
  | cons key keys ih =>
    intro seen done h
    have hown : key.repetitionsAt (done ++ key :: keys) done.length =
        ((done.findIdx? (·.same key)).map fun first =>
          Warning.repeatedKey key.warningLabel first done.length).toList ++
            key.labelWarnings done.length := by
      rw [repetitionsAt, List.take_left, labelWarnings_eq]
    have hlength : (done ++ [key]).length = done.length + 1 := by simp
    have hdone : done ++ [key] ++ keys = done ++ key :: keys := by simp
    rw [warningsFrom, List.zipIdx_cons, List.flatMap_cons, hown, ← h key]
    -- a key enters those seen at its first place only
    cases hfind : seen.find? (·.1.same key) with
    | some earlier =>
      have hkey := h key
      rw [hfind] at hkey
      have hrest := ih (h.snoc_seen hkey.symm)
      rw [hlength, hdone] at hrest
      simp [hrest]
    | none =>
      have hrest := ih (h.snoc_new key)
      rw [hlength, hdone] at hrest
      simp [hrest]

end Key

/-! ## Definitions -/

namespace Definition

/-- The warnings about all keys, in order. -/
def repetitions (d : Definition) : List Warning :=
  d.keys.zipIdx.flatMap fun p => p.1.repetitionsAt d.keys p.2

/-- The group calls of a definition, at any depth, in order. -/
def groupCalls (d : Definition) : List Call :=
  d.keys.flatMap fun key => key.calls.filter (·.callee.kind = .group)

theorem warnings_eq (d : Definition) : d.warnings = d.repetitions := by
  have hstart : Key.Remembers [] [] := fun _ => rfl
  exact Key.warningsFrom_eq d.keys hstart

/-- There is one warning for each key beyond the distinct ones. -/
theorem countP_repeats_key (keys : List Key) :
    keys.zipIdx.countP (fun p => ((keys.take p.2).findIdx? (·.same p.1)).isSome) =
      keys.length - (keys.map Key.identity).toFinset.card := by
  have hcount : (repeated (keys.map Key.identity)).length =
      keys.zipIdx.countP fun p => ((keys.take p.2).findIdx? (·.same p.1)).isSome := by
    unfold repeated
    rw [List.length_map, ← List.countP_eq_length_filter, List.zipIdx_map, List.countP_map]
    refine List.countP_congr fun p _ => ?_
    have hmem : p.1.identity ∈ (keys.map Key.identity).take p.2 ↔
        ∃ earlier ∈ keys.take p.2, earlier.same p.1 = true := by
      rw [← List.map_take, List.mem_map]
      simp only [Key.identity_eq_iff]
    rw [List.findIdx?_isSome, List.any_eq_true, ← hmem]
    simp
  rw [← hcount, length_repeated, List.length_map]

/-- There is one warning for each label beyond the distinct ones of its call. -/
theorem length_repeated_labels (d : Definition) :
    (d.keys.zipIdx.flatMap fun p => (p.1.calls.filter (·.callee.kind = .group)).flatMap fun call =>
        (repeated call.labels).map (Warning.repeatedLabel · p.2)).length =
      (d.groupCalls.map fun call => call.labels.length - call.labels.toFinset.card).sum := by
  have hkey : ∀ p : Key × Nat,
      ((p.1.calls.filter (·.callee.kind = .group)).flatMap fun call =>
        (repeated call.labels).map (Warning.repeatedLabel · p.2)).length =
      ((p.1.calls.filter (·.callee.kind = .group)).map fun call =>
        call.labels.length - call.labels.toFinset.card).sum := by
    intro p
    simp only [List.length_flatMap, List.length_map, length_repeated]
  unfold groupCalls
  rw [List.length_flatMap, List.map_congr_left fun p _ => hkey p, List.map_flatMap,
    List.flatMap_def, List.sum_flatten, List.map_map]
  conv_rhs => rw [← List.zipIdx_map_fst 0 d.keys, List.map_map]
  rfl

theorem length_repetitions (d : Definition) :
    d.repetitions.length =
      (d.keys.length - (d.keys.map Key.identity).toFinset.card) +
        (d.groupCalls.map fun call => call.labels.length - call.labels.toFinset.card).sum := by
  -- up to their order, the warnings about keys come first and those about labels after them
  unfold repetitions Key.repetitionsAt
  rw [← (List.flatMap_append_perm _ _ _).length_eq, List.length_append, length_repeated_labels,
    ← List.filterMap_eq_flatMap_toList, List.length_filterMap_eq_countP, ← countP_repeats_key]
  simp only [Option.isSome_map]

/-- There is nothing to warn of just when nothing is repeated. -/
theorem repetitions_eq_nil_iff (d : Definition) :
    d.repetitions = [] ↔
      d.keys.Pairwise (fun a b => a.same b = false) ∧ ∀ call ∈ d.groupCalls, call.labels.Nodup := by
  have hkeys : d.keys.length - (d.keys.map Key.identity).toFinset.card = 0 ↔
      d.keys.Pairwise fun a b => a.same b = false := by
    rw [← List.length_map (f := Key.identity), ← length_repeated, length_repeated_eq_zero_iff,
      List.Nodup, List.pairwise_map]
    simp only [ne_eq, Key.identity_eq_iff, Bool.not_eq_true]
  have hlabels : ∀ call : Call, call.labels.length - call.labels.toFinset.card = 0 ↔
      call.labels.Nodup := by
    intro call
    rw [← length_repeated, length_repeated_eq_zero_iff]
  rw [← List.length_eq_zero_iff, length_repetitions, Nat.add_eq_zero_iff, hkeys,
    List.sum_eq_zero_iff_forall_eq_nat, List.forall_mem_map]
  simp only [hlabels]

/-- **Warnings report exactly the repetitions.** If all arguments of its group calls after the first are
labels, the warnings of a definition exist. For each key in order there is one that names the first
earlier key that is the same, if there is such a key, and then one for each label that a group call of
the key, outer calls before inner ones, has listed before. So their number is that of the keys and
labels beyond the distinct ones, and there are none just when no two keys are the same and no group call
lists a label twice. -/
theorem warnings_are_repetitions {d : Definition}
    (h : ∀ key ∈ d.keys, ∀ call ∈ key.calls, call.Labelled) :
    d.toNode.warnings = .ok d.repetitions ∧
      d.repetitions.length =
        (d.keys.length - (d.keys.map Key.identity).toFinset.card) +
          (d.groupCalls.map fun call => call.labels.length - call.labels.toFinset.card).sum ∧
      (d.repetitions = [] ↔
        d.keys.Pairwise (fun a b => a.same b = false) ∧
          ∀ call ∈ d.groupCalls, call.labels.Nodup) := by
  refine ⟨?_, d.length_repetitions, d.repetitions_eq_nil_iff⟩
  rw [← d.warnings_eq]
  exact warnings_of_labelled h

/-- The third and the fourth key repeat the first one, and a group call in the key of another lists a
label again. -/
theorem warnings_are_repetitions_nested :
    ∃ d : Definition, (∀ key ∈ d.keys, ∀ call ∈ key.calls, call.Labelled) ∧
      d.text = "ip6ttl,or:[group:[group:ip6tos:a:a]:b:c:b]:ip6ttl,ip6ttl,ip6ttl" ∧
      d.toNode.warnings = .ok [.repeatedLabel "b" 1, .repeatedLabel "a" 1,
        .repeatedKey "ip6ttl" 0 2, .repeatedKey "ip6ttl" 0 3] := by
  let ttl : KeyName := ⟨"ip6ttl", "time to live"⟩
  let inner : Call := ⟨⟨.group, "group"⟩, [.key ⟨"ip6tos", ""⟩, .literal "a", .literal "a"]⟩
  let outer : Call :=
    ⟨⟨.group, "group"⟩, [inner.asArgument, .literal "b", .literal "c", .literal "b"]⟩
  let first : Call := ⟨⟨.plain, "or"⟩, [outer.asArgument, .key ttl]⟩
  let d : Definition := .snoc [.name ttl, .computed first, .name ⟨"ip6ttl", ""⟩] (.name ttl)
  have hinner : inner.Labelled := fun _ => ⟨["a", "a"], rfl⟩
  have houter : outer.Labelled := fun _ => ⟨["b", "c", "b"], rfl⟩
  have hfirst : first.Labelled := fun hgroup => by cases hgroup
  have hcalls : ∀ call ∈ (Key.computed first).calls, call.Labelled := by
    intro call hcall
    have hmem : call ∈ [first, outer, inner] := hcall
    simp only [List.mem_cons, List.not_mem_nil, or_false] at hmem
    rcases hmem with rfl | rfl | rfl
    · exact hfirst
    · exact houter
    · exact hinner
  have h : ∀ key ∈ d.keys, ∀ call ∈ key.calls, call.Labelled := by
    intro key hkey
    have hmem : key ∈ [Key.name ttl, .computed first, .name ⟨"ip6ttl", ""⟩, .name ttl] := hkey
    simp only [List.mem_cons, List.not_mem_nil, or_false] at hmem
    rcases hmem with rfl | rfl | rfl | rfl
    · exact fun _ hnone => by cases hnone
    · exact hcalls
    · exact fun _ hnone => by cases hnone
    · exact fun _ hnone => by cases hnone
  exact ⟨d, h, by decide, (warnings_are_repetitions h).1⟩

end Definition

end TrafficKey
