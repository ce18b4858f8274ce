import TrafficKey.Parse.Staged
import TrafficKey.Proofs.Additions
import TrafficKey.Proofs.Ranking

/-!
# The order of entries does not matter

Both parsers ask the tables only for the entry of a name, and for suggestions when there is none. A
table with its entries in another order gives the same answers, since a name has one entry and
suggestions have an order of their own. So the order in which extension data is applied shows in no
definition and in no diagnostic.
-/

namespace TrafficKey

/-! ## Tables that answer alike -/

/-- The tables give the same entry for every name, and the same diagnostic where there is none. -/
structure Tables.SameAnswers (t t' : Tables) : Prop where
  catalog : ∀ name, t.catalog.lookup name = t'.catalog.lookup name
  registry : ∀ name, t.registry.lookup name = t'.registry.lookup name
  nameDiagnostic : ∀ name offset, t.nameDiagnostic name offset = t'.nameDiagnostic name offset
  functionDiagnostic : ∀ name offset,
    t.functionDiagnostic name offset = t'.functionDiagnostic name offset

/-- The tables have the same entries, perhaps in another order. -/
structure Tables.Rearranges (t t' : Tables) : Prop where
  catalog : t.catalog.entries.Perm t'.catalog.entries
  registry : t.registry.entries.Perm t'.registry.entries

theorem Table.lookup_perm {α : Type} [Named α] {table table' : Table α}
    (h : table.entries.Perm table'.entries) (name : String) :
    table.lookup name = table'.lookup name := by
  apply Option.ext
  intro entry
  rw [Table.lookup_eq_some_iff, Table.lookup_eq_some_iff, h.mem_iff]

theorem Table.names_perm {α : Type} [Named α] {table table' : Table α}
    (h : table.entries.Perm table'.entries) : table.names.Perm table'.names :=
  h.map Named.nameOf

theorem Tables.Rearranges.sameAnswers {t t' : Tables} (h : t.Rearranges t') :
    t.SameAnswers t' where
  catalog := Table.lookup_perm h.catalog
  registry := Table.lookup_perm h.registry
  nameDiagnostic := by
    intro name offset
    unfold Tables.nameDiagnostic
    rw [Suggestion.closest_perm (Table.names_perm h.catalog)]
  functionDiagnostic := by
    intro name offset
    unfold Tables.functionDiagnostic
    rw [Suggestion.closest_perm (Table.names_perm h.registry)]

variable {t t' : Tables}

/-! ## The direct parser -/

namespace Direct

theorem step_sameAnswers (h : t.SameAnswers t') : step t = step t' := by
  funext s token
  simp only [step, openCall, readArgument, h.catalog, h.registry, h.nameDiagnostic,
    h.functionDiagnostic]

theorem finish_sameAnswers (h : t.SameAnswers t') : finish t = finish t' := by
  funext s stop
  simp only [finish, h.catalog, h.nameDiagnostic]

theorem parse_sameAnswers (h : t.SameAnswers t') (line : String) :
    parse t line = parse t' line := by
  unfold parse readAll feed
  rw [step_sameAnswers h, finish_sameAnswers h]

end Direct

/-! ## The staged parser -/

theorem Checker.check_sameAnswers (h : t.SameAnswers t') : Checker.check t = Checker.check t' := by
  funext base c token
  simp only [Checker.check, Checker.onToken, Checker.onKeyName, Checker.onArgument,
    Checker.openCall, Checker.checkName, h.catalog, h.registry, h.nameDiagnostic,
    h.functionDiagnostic]

namespace Staged

theorem resolveBare_sameAnswers (h : t.SameAnswers t') : resolveBare t = resolveBare t' := by
  funext kind name
  simp only [resolveBare, resolveName, h.catalog]

theorem resolveFunction_sameAnswers (h : t.SameAnswers t') :
    resolveFunction t = resolveFunction t' := by
  funext name
  simp only [resolveFunction, h.registry]

mutual

theorem resolveArgument_sameAnswers (h : t.SameAnswers t') (kind : Option ArgKind) :
    ∀ arg, resolveArgument t kind arg = resolveArgument t' kind arg
  | .bare name => by rw [resolveArgument, resolveArgument, resolveBare_sameAnswers h]
  | .nested name args => by
    rw [resolveArgument, resolveArgument, resolveFunction_sameAnswers h]
    simp only [fun shape => resolveArguments_sameAnswers h shape 0 args]

theorem resolveArguments_sameAnswers (h : t.SameAnswers t') (shape : FunctionShape) (i : Nat) :
    ∀ args, resolveArguments t shape i args = resolveArguments t' shape i args
  | [] => by rw [resolveArguments, resolveArguments]
  | arg :: args => by
    rw [resolveArguments, resolveArguments, resolveArgument_sameAnswers h (shape.kindAt i) arg,
      resolveArguments_sameAnswers h shape (i + 1) args]

end

theorem resolveKey_sameAnswers (h : t.SameAnswers t') : resolveKey t = resolveKey t' := by
  funext key
  cases key with
  | bare name => simp only [resolveKey, resolveName, h.catalog]
  | call name args =>
    simp only [resolveKey, resolveFunction_sameAnswers h, resolveArguments_sameAnswers h]

theorem parseWith_sameAnswers (h : t.SameAnswers t') {σ : Type} (e : Outline.Engine σ)
    (line : String) : parseWith e t line = parseWith e t' line := by
  have hstep : step e t = step e t' := by
    unfold step
    rw [Checker.check_sameAnswers h]
  have hfinish : finish e t = finish e t' := by
    unfold finish
    rw [Checker.check_sameAnswers h]
  have hresolve : resolve t = resolve t' := by
    unfold resolve
    rw [resolveKey_sameAnswers h]
  unfold parseWith
  rw [hstep, hfinish, hresolve]

end Staged

/-! ## Extension data in another order -/

namespace Extension

/-- What can be applied in one order can be applied in every order, and adds the same entries. -/
theorem applyAll_perm {room : EntryField → Nat} {values values' : List Data}
    (hperm : values.Perm values') {extended : Tables} (h : applyAll room t values = .ok extended) :
    ∃ extended', applyAll room t values' = .ok extended' ∧ extended.Rearranges extended' := by
  obtain ⟨added, hadded, hcatalog, hregistry⟩ := applyAll_eq_ok_iff.1 h
  obtain ⟨added', hadded', hadditions⟩ := List.perm_comp_forall₂ hperm.symm hadded
  -- the entries of the second order are those of the first, so their names are distinct as well
  have hnames : extended.catalog.entries.Perm
      (t.catalog.entries ++ added'.flatMap Addition.names) := by
    rw [hcatalog]
    exact (hadditions.symm.flatMap_right Addition.names).append_left _
  have hshapes : extended.registry.entries.Perm
      (t.registry.entries ++ added'.flatMap Addition.shapes) := by
    rw [hregistry]
    exact (hadditions.symm.flatMap_right Addition.shapes).append_left _
  obtain ⟨catalog, hcatalog'⟩ := Table.exists_of_perm hnames
  obtain ⟨registry, hregistry'⟩ := Table.exists_of_perm hshapes
  refine ⟨⟨catalog, registry⟩, ?_, ?_, ?_⟩
  · exact applyAll_eq_ok_iff.2 ⟨added', hadded', hcatalog', hregistry'⟩
  · rw [hcatalog']
    exact hnames
  · rw [hregistry']
    exact hshapes

/-- **The order of extensions does not matter.** If extension data can be applied to tables in one
order, it can be applied in every order. Every line is then read alike with the tables of both orders,
by either parser: as the same definition, or with the same diagnostic, its suggestions included. -/
theorem parse_eq_of_applyAll_perm {room : EntryField → Nat} {t : Tables} {values values' : List Data}
    (hperm : values.Perm values') :
    ((∃ extended, applyAll room t values = .ok extended) ↔
        ∃ extended', applyAll room t values' = .ok extended') ∧
      ∀ extended extended', applyAll room t values = .ok extended →
        applyAll room t values' = .ok extended' →
        ∀ line, Direct.parse extended line = Direct.parse extended' line ∧
          ∀ (σ : Type) (e : Outline.Engine σ),
            Staged.parseWith e extended line = Staged.parseWith e extended' line := by
  constructor
  · constructor
    · rintro ⟨extended, h⟩
      obtain ⟨extended', h', _⟩ := applyAll_perm hperm h
      exact ⟨extended', h'⟩
    · rintro ⟨extended', h'⟩
      obtain ⟨extended, h, _⟩ := applyAll_perm hperm.symm h'
      exact ⟨extended, h⟩
  · intro extended extended' h h' line
    obtain ⟨rearranged, hrearranged, hsame⟩ := applyAll_perm hperm h
    have heq : rearranged = extended' := Except.ok.inj (hrearranged.symm.trans h')
    rw [heq] at hsame
    have hanswers := hsame.sameAnswers
    exact ⟨Direct.parse_sameAnswers hanswers line,
      fun σ e => Staged.parseWith_sameAnswers hanswers e line⟩

/-- A line with two added names is read, and a misspelt one between them is rejected, in both
orders. -/
theorem parse_eq_of_applyAll_perm_two_names :
    ∃ first second extended extended', [first, second].Perm [second, first] ∧
      applyAll EntryField.standardRoom .builtin [first, second] = .ok extended ∧
      applyAll EntryField.standardRoom .builtin [second, first] = .ok extended' ∧
      (∃ d, Direct.parse extended "ip6ttk,or:ip6ttm:ip6ttl" = .ok d ∧
        Direct.parse extended' "ip6ttk,or:ip6ttm:ip6ttl" = .ok d) ∧
      Direct.parse extended "ip6tt" = Direct.parse extended' "ip6tt" ∧
      Staged.parse extended "ip6tt" = Staged.parse extended' "ip6tt" := by
  let first : Data := .record [("key_names", .list [.str "ip6ttm"])]
  let second : Data := .record [("key_names", .list [.str "ip6ttk"])]
  let extended : Tables :=
    ⟨⟨Catalog.builtinNames ++ [⟨"ip6ttm", ""⟩, ⟨"ip6ttk", ""⟩], by decide⟩, .builtin⟩
  let extended' : Tables :=
    ⟨⟨Catalog.builtinNames ++ [⟨"ip6ttk", ""⟩, ⟨"ip6ttm", ""⟩], by decide⟩, .builtin⟩
  have h : applyAll EntryField.standardRoom .builtin [first, second] = .ok extended := by rfl
  have h' : applyAll EntryField.standardRoom .builtin [second, first] = .ok extended' := by rfl
  have hperm : [first, second].Perm [second, first] := .swap second first []
  have hread : Direct.parse extended "ip6ttk,or:ip6ttm:ip6ttl" =
      .ok (.snoc [.name ⟨"ip6ttk", ""⟩] (.computed ⟨⟨.plain, "or"⟩,
        [.key ⟨"ip6ttm", ""⟩, .key ⟨"ip6ttl", "time to live"⟩]⟩)) := by
    cbv
  have hsame := (parse_eq_of_applyAll_perm hperm).2 extended extended' h h'
  have hread' := (hsame "ip6ttk,or:ip6ttm:ip6ttl").1.symm.trans hread
  exact ⟨first, second, extended, extended', hperm, h, h', ⟨_, hread, hread'⟩,
    (hsame "ip6tt").1, (hsame "ip6tt").2 _ _⟩

end Extension

end TrafficKey
