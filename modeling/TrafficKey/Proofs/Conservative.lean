import TrafficKey.Proofs.Refusals

/-!
# Larger tables

Adding entries to the tables is conservative: a line that is read stays read as the same definition,
and a line that is rejected is rejected for the same reason, unless the reason was a name that the
larger tables have. The two runs go in lockstep, since an accepted token is accepted with the same
effect, and a refused one is refused with at most other suggestions.
-/

namespace TrafficKey

/-! ## Tables that extend each other -/

theorem Table.entries_of_ofList {α : Type} [Named α] {entries : List α} {table : Table α}
    (h : Table.ofList entries = .ok table) : table.entries = entries := by
  unfold Table.ofList at h
  split at h
  · cases h
    rfl
  · cases h

/-- An entry is still found under its name after more entries were added. -/
theorem Table.lookup_of_extend {α : Type} [Named α] {table larger : Table α} {more : List α}
    (h : table.extend more = .ok larger) {name : String} {entry : α}
    (hl : table.lookup name = some entry) : larger.lookup name = some entry := by
  have hentries : larger.entries = table.entries ++ more := Table.entries_of_ofList h
  unfold Table.lookup at hl ⊢
  rw [hentries, List.find?_append, hl]
  rfl

/-- The larger tables have every entry of the smaller ones. -/
structure Tables.Extends (t t' : Tables) : Prop where
  catalog : ∀ name entry, t.catalog.lookup name = some entry →
    t'.catalog.lookup name = some entry
  registry : ∀ name shape, t.registry.lookup name = some shape →
    t'.registry.lookup name = some shape

/-! ## Diagnostics under larger tables -/

/-- The name that the diagnostic calls unknown, if any, is unknown to these tables. -/
def Diagnostic.StillHolds (t : Tables) : Diagnostic → Prop
  | .unknownName name _ _ => t.catalog.lookup name = none
  | .unknownFunction name _ _ => t.registry.lookup name = none
  | .malformed .. | .arityMismatch .. | .emptyDefinition => True

/-- The diagnostic with the suggestions that these tables give. -/
def Diagnostic.suggesting (t : Tables) : Diagnostic → Diagnostic
  | .unknownName name offset _ => t.nameDiagnostic name offset
  | .unknownFunction name offset _ => t.functionDiagnostic name offset
  | d => d

namespace Direct

/-- The rejection with the suggestions that these tables give. -/
def Rejection.suggesting (t : Tables) (r : Rejection) : Rejection :=
  { r with diagnostic := r.diagnostic.suggesting t }

variable {t t' : Tables} {s s' : State} {token : Token} {r : Rejection} {tokens : List Token}
  {stop : Int}

/-! ## One token -/

theorem Step.extend (ht : t.Extends t') (h : Step t s token s') : Step t' s token s' := by
  cases h with
  | keyName hstage hk => exact .keyName hstage hk
  | openKey hk hl => exact .openKey hk (ht.registry _ _ hl)
  | endName hk hl => exact .endName hk (ht.catalog _ _ hl)
  | literal hk hkind => exact .literal hk hkind
  | key hk hkind hl => exact .key hk hkind (ht.catalog _ _ hl)
  | openBracket hk hkind hdepth => exact .openBracket hk hkind hdepth
  | nextArgument hk => exact .nextArgument hk
  | endComputed hk ha => exact .endComputed hk ha
  | closeBracket hk ha => exact .closeBracket hk ha
  | nestedName hk => exact .nestedName hk
  | openNested hk hl => exact .openNested hk (ht.registry _ _ hl)

theorem Misfit.extend {stage : Stage} {e : Expectation} (ht : t.Extends t')
    (h : Misfit t stage token e) : Misfit t' stage token e := by
  cases h with
  | keyStart hstage hk => exact .keyStart hstage hk
  | afterName hl hcolon hcomma => exact .afterName (ht.catalog _ _ hl) hcolon hcomma
  | literalArgument hk hkind => exact .literalArgument hk hkind
  | argument hname hopen => exact .argument hname hopen
  | afterCall ha hcolon hcomma => exact .afterCall ha hcolon hcomma
  | unclosed ha hcolon hclose => exact .unclosed ha hcolon hclose
  | functionName hk => exact .functionName hk
  | colonAfterName hk => exact .colonAfterName hk

theorem Refusal.extend (ht : t.Extends t') (h : Refusal t s token r)
    (hr : r.diagnostic.StillHolds t') : Refusal t' s token (r.suggesting t') := by
  cases h with
  | misfit h => exact .misfit (h.extend ht)
  | tooDeep hk hkind hdepth => exact .tooDeep hk hkind hdepth
  | unknownFunction hstage hk hl => exact .unknownFunction hstage hk hr
  | unknownName hk hl => exact .unknownName hk hr
  | unknownArgument hk hkind hl => exact .unknownArgument hk hkind hr
  | arity hk ha => exact .arity hk ha

/-! ## The end of input -/

theorem Finish.extend {d : Definition} (ht : t.Extends t') (h : Finish t s d) :
    Finish t' s d := by
  cases h with
  | name hl => exact .name (ht.catalog _ _ hl)
  | computed ha => exact .computed ha

theorem Shortfall.extend (h : Shortfall t stop s r) (hr : r.diagnostic.StillHolds t') :
    Shortfall t' stop s (r.suggesting t') := by
  cases h with
  | empty => exact .empty
  | afterComma => exact .afterComma
  | afterColon => exact .afterColon
  | unclosed ha => exact .unclosed ha
  | functionName => exact .functionName
  | colonAfterName => exact .colonAfterName
  | unknownName hl => exact .unknownName hr
  | arity ha => exact .arity ha

/-! ## A whole line -/

theorem feed_extend (ht : t.Extends t') (h : feed t s tokens = .ok s') :
    feed t' s tokens = .ok s' := by
  unfold feed at h ⊢
  induction tokens generalizing s with
  | nil => exact h
  | cons token tokens ih =>
    rw [List.foldlM_cons, bind_eq_ok] at h ⊢
    rcases h with ⟨m, hm, hrest⟩
    exact ⟨m, ((Step.of_step_eq hm).extend ht).step_eq, ih hrest⟩

theorem readAll_extend {d : Definition} (ht : t.Extends t') (h : readAll t tokens stop = .ok d) :
    readAll t' tokens stop = .ok d := by
  rcases bind_eq_ok.1 h with ⟨s, hfeed, hfinish⟩
  refine bind_eq_ok.2 ⟨s, feed_extend ht hfeed, ?_⟩
  exact ((Finish.of_finish_eq hfinish).extend ht).finish_eq

theorem readAll_extend_error (ht : t.Extends t') (h : readAll t tokens stop = .error r)
    (hr : r.diagnostic.StillHolds t') : readAll t' tokens stop = .error (r.suggesting t') := by
  rw [readAll_eq_error_iff] at h ⊢
  rcases h with ⟨before, token, after, s, htokens, hfeed, hrefused⟩ | ⟨s, hfeed, hshort⟩
  · exact Or.inl ⟨before, token, after, s, htokens, feed_extend ht hfeed, hrefused.extend ht hr⟩
  · exact Or.inr ⟨s, feed_extend ht hfeed, hshort.extend hr⟩

theorem parse_extend {line : String} {d : Definition} (ht : t.Extends t')
    (h : parse t line = .ok d) : parse t' line = .ok d := by
  rcases bind_eq_ok.1 h with ⟨tokens, hlex, hread⟩
  refine bind_eq_ok.2 ⟨tokens, hlex, ?_⟩
  rw [mapError_eq_ok_iff] at hread ⊢
  exact readAll_extend ht hread

theorem parse_extend_error {line : String} {d : Diagnostic} (ht : t.Extends t')
    (h : parse t line = .error d) (hd : d.StillHolds t') :
    parse t' line = .error (d.suggesting t') := by
  unfold parse at h ⊢
  rcases bind_eq_error.1 h with hlex | ⟨tokens, hlex, hread⟩
  · -- the tables are not looked at before the line is cut
    rw [hlex]
    rcases mapError_eq_error_iff.1 hlex with ⟨u, _, rfl⟩
    rfl
  · rcases mapError_eq_error_iff.1 hread with ⟨r, hr, rfl⟩
    rw [hlex]
    exact mapError_eq_error_iff.2 ⟨_, readAll_extend_error ht hr hd, rfl⟩

/-- **Extending the tables is conservative.** What was read is read as the same definition, and what
was rejected for another reason than an unknown name is rejected with the same diagnostic. A name that
was reported as unknown and that is still missing is reported again at the same place. -/
theorem parse_extended {t : Tables} {catalog : Catalog} {registry : Registry}
    {names : List KeyName} {shapes : List FunctionShape}
    (hc : t.catalog.extend names = .ok catalog) (hr : t.registry.extend shapes = .ok registry)
    (line : String) :
    (∀ d, parse t line = .ok d → parse ⟨catalog, registry⟩ line = .ok d) ∧
      (∀ d, parse t line = .error d → d.kind ≠ .unknownName → d.kind ≠ .unknownFunction →
        parse ⟨catalog, registry⟩ line = .error d) ∧
      (∀ name offset suggestions, parse t line = .error (.unknownName name offset suggestions) →
        catalog.lookup name = none →
        ∃ others, parse ⟨catalog, registry⟩ line = .error (.unknownName name offset others)) ∧
      ∀ name offset suggestions,
        parse t line = .error (.unknownFunction name offset suggestions) →
        registry.lookup name = none →
        ∃ others,
          parse ⟨catalog, registry⟩ line = .error (.unknownFunction name offset others) := by
  have ht : t.Extends ⟨catalog, registry⟩ :=
    ⟨fun _ _ hl => Table.lookup_of_extend hc hl, fun _ _ hl => Table.lookup_of_extend hr hl⟩
  refine ⟨fun d hd => parse_extend ht hd, ?_, ?_, ?_⟩
  · intro d hd hname hfunction
    cases d with
    | unknownName name offset suggestions => exact absurd rfl hname
    | unknownFunction name offset suggestions => exact absurd rfl hfunction
    | malformed offset e found => exact parse_extend_error ht hd trivial
    | arityMismatch function expected got offset => exact parse_extend_error ht hd trivial
    | emptyDefinition => exact parse_extend_error ht hd trivial
  · intro name offset suggestions hd habsent
    exact ⟨_, parse_extend_error ht hd habsent⟩
  · intro name offset suggestions hd habsent
    exact ⟨_, parse_extend_error ht hd habsent⟩

theorem parse_extended_arity :
    ∃ catalog registry, Catalog.builtin.extend [⟨"vlan", "virtual network"⟩] = .ok catalog ∧
      Registry.builtin.extend [{ name := "max", arity := .atLeast 2, kinds := [.key] }] =
        .ok registry ∧
      parse .builtin "or:ipsource:[asn:x:y]" = .error (.arityMismatch "asn" (.exact 1) 2 13) ∧
      parse ⟨catalog, registry⟩ "or:ipsource:[asn:x:y]" =
        .error (.arityMismatch "asn" (.exact 1) 2 13) := by
  have h : parse .builtin "or:ipsource:[asn:x:y]" =
      .error (.arityMismatch "asn" (.exact 1) 2 13) := by
    cbv
  have hc : ∃ catalog, Catalog.builtin.extend [⟨"vlan", "virtual network"⟩] = .ok catalog :=
    ⟨_, rfl⟩
  have hr : ∃ registry, Registry.builtin.extend
      [{ name := "max", arity := .atLeast 2, kinds := [.key] }] = .ok registry :=
    ⟨_, rfl⟩
  rcases hc with ⟨catalog, hc⟩
  rcases hr with ⟨registry, hr⟩
  have hkept := (parse_extended hc hr "or:ipsource:[asn:x:y]").2.1 _ h (by decide) (by decide)
  exact ⟨catalog, registry, hc, hr, h, hkept⟩

end Direct

end TrafficKey
