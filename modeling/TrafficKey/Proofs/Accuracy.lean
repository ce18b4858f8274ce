import TrafficKey.Proofs.Conformance
import TrafficKey.Proofs.WellFormed

/-!
# Diagnostics say what is so

What a diagnostic tells of a line can be checked against the characters of the untrimmed line and the
tables: the reported name stands as a whole word at the reported offset and is missing in its table, a
call has as many arguments as reported and its arity does not accept them, and what was found in place
of what was expected stands there. Every diagnostic of the direct parser passes this check.
-/

namespace TrafficKey

/-- The diagnostic points into the line without the blanks around it, or right behind it. -/
def Diagnostic.Within (line : String) (d : Diagnostic) : Prop :=
  ∃ n : Nat, d.offset? = some (n : Int) ∧ Text.indent line.toList ≤ n ∧
    n ≤ (Text.trimRight line.toList).length

/-- The line has a call of `function` at `offset` with `count` arguments, after which no further
argument comes. -/
def CallAt (line : String) (offset : Nat) (function : String) (count : Nat) : Prop :=
  ∃ before name args body rest, lineTokens line = .ok (before ++ name :: (body ++ rest)) ∧
    name.value = function ∧ name.offset = (offset : Int) ∧ Outline.Arguments args body ∧
    args.length = count ∧ ∀ token ∈ rest.head?, token.kind ≠ .colon

/-- What the diagnostic says of the line and the tables is so. -/
def Diagnostic.Accurate (t : Tables) (line : String) : Diagnostic → Prop
  | .emptyDefinition => Text.trimmed line = ""
  | .unknownName name offset _ =>
    ∃ n : Nat, offset = n ∧ WordAt line.toList n name ∧ name ∉ t.catalog.names
  | .unknownFunction name offset _ =>
    ∃ n : Nat, offset = n ∧ WordAt line.toList n name ∧
      StandsAt line.toList n (name.toList ++ [':']) ∧ name ∉ t.registry.names
  | .arityMismatch function expected got offset =>
    ∃ n : Nat, offset = n ∧ WordAt line.toList n function ∧ CallAt line n function got ∧
      (∃ shape, t.registry.lookup function = some shape ∧ shape.arity = expected) ∧
      expected.accepts got = false
  | .malformed offset _ (some found) =>
    ∃ n : Nat, offset = n ∧ found ≠ "" ∧ StandsAt line.toList n found.toList
  | .malformed offset _ none =>
    ∃ n : Nat, offset = n ∧
      (n = (Text.trimRight line.toList).length ∨
        (StandsAt line.toList n [','] ∨ StandsAt line.toList n [':']) ∧
          n + 1 = (Text.trimRight line.toList).length ∨
        StandsAt line.toList n ['['])

theorem Table.not_mem_names_of_lookup {α : Type} [Named α] {table : Table α} {name : String}
    (h : table.lookup name = none) : name ∉ table.names := by
  intro hmem
  rcases List.mem_map.1 hmem with ⟨entry, hentry, hname⟩
  have hne := List.find?_eq_none.1 h entry hentry
  simp [hname] at hne

theorem trimmed_eq_empty_iff (line : String) :
    Text.trimmed line = "" ↔ Text.trim line.toList = [] := by
  unfold Text.trimmed
  rw [String.ofList_eq_empty_iff]

theorem Outline.Opened.innermost {call : Outline.OpenCall} {outer : List Outline.OpenCall}
    {tokens : List Token} (h : Outline.Opened (call :: outer) tokens) :
    call.name.kind = .identifier ∧
      ∃ before body, tokens = before ++ call.name :: body ∧ Outline.Arguments call.args body := by
  cases h with
  | top hname hargs => exact ⟨hname, [], _, rfl, hargs⟩
  | @nested parent outer colon opening name args before body _ _ _ hname hargs =>
    exact ⟨hname, before ++ [colon, opening], body, by simp, hargs⟩

namespace Direct

variable {t : Tables} {line : String} {s : State} {r : Rejection} {d : Diagnostic}
  {tokens before after body rest : List Token} {token name : Token} {stop : Int}

/-! ## The tokens that a stage remembers -/

/-- The name that the stage has not looked up yet. -/
def Stage.pending? : Stage → Option Token
  | .keyName name => some name
  | .named name _ _ => some name
  | _ => none

theorem Step.pending_eq {s' : State} (h : Step t s token s')
    (hname : s'.stage.pending? = some name) : name = token ∧ token.kind = .identifier := by
  cases h with
  | keyName _ hk | nestedName hk =>
    cases hname
    exact ⟨rfl, hk⟩
  | openKey | endName | literal | key | openBracket | nextArgument | endComputed | closeBracket
  | openNested => cases hname

/-- A name that was not looked up yet was read last. -/
theorem pending_of_feed (h : feed t {} tokens = .ok s) (hname : s.stage.pending? = some name) :
    name.kind = .identifier ∧ ∃ before, tokens = before ++ [name] := by
  rcases feed_last h with ⟨rfl, rfl⟩ | ⟨before, token, m, rfl, _, hstep⟩
  · cases hname
  · rcases hstep.pending_eq hname with ⟨rfl, hk⟩
    exact ⟨hk, before, rfl⟩

theorem eq_nil_of_feed_start (h : feed t {} tokens = .ok s) (hs : s.stage = .start) :
    tokens = [] := by
  rcases feed_last h with ⟨rfl, _⟩ | ⟨before, token, m, _, _, hstep⟩
  · rfl
  · exact absurd hs hstep.stage_ne_start

/-- The arguments of the innermost call come right after its name. -/
theorem call_of_feed {call : OpenCall} {outer : List OpenCall} (h : feed t {} tokens = .ok s)
    (hs : s.stage = .afterArgument call outer) :
    t.registry.lookup call.name.value = some call.shape ∧ call.name.kind = .identifier ∧
      ∃ before args body, tokens = before ++ call.name :: body ∧ Outline.Arguments args body ∧
        args.length = call.args.length := by
  rcases outlined_of_feed h with ⟨⟨place, outlines⟩, hm, hplace⟩
  rcases Outline.Machine.reads_of_feed hm with ⟨earlier, current, rfl, _, hreads⟩
  rw [hs] at hplace
  cases hplace with
  | afterArgument hcall _ =>
    rcases hreads.2.innermost with ⟨hk, before, body, rfl, hargs⟩
    rw [hcall.name] at hk ⊢
    exact ⟨hcall.found, hk, earlier ++ before, _, body, by simp, hargs, hcall.count⟩

/-! ## What is said of single tokens -/

theorem within_of_token (hline : Text.trim line.toList ≠ [])
    (h : lineTokens line = .ok (before ++ token :: after)) (hd : d.offset? = some token.offset) :
    d.Within line := by
  rcases standsAt_of_token h with ⟨n, hn, _, hfirst, hlast⟩
  refine ⟨n, by rw [hd, hn], hfirst, ?_⟩
  rw [Text.length_trimRight hline]
  unfold lineEnd at hlast
  omega

theorem accurate_found (h : lineTokens line = .ok (before ++ token :: after)) (e : Expectation) :
    (Diagnostic.malformed token.offset e (some token.value)).Accurate t line := by
  rcases standsAt_of_token h with ⟨n, hn, hstands, _⟩
  refine ⟨n, hn, ?_, hstands⟩
  intro hempty
  have hvalue := (tiles_of_lineTokens h).matches_value token (by simp)
  rw [hempty] at hvalue
  cases hk : token.kind <;> simp [hk, TokenKind.Matches] at hvalue

theorem accurate_unknownName (h : lineTokens line = .ok (before ++ name :: after))
    (hk : name.kind = .identifier) (hl : t.catalog.lookup name.value = none) :
    (t.nameDiagnostic name.value name.offset).Accurate t line := by
  rcases wordAt_of_token h hk with ⟨n, hn, hword⟩
  exact ⟨n, hn, hword, Table.not_mem_names_of_lookup hl⟩

theorem accurate_unknownFunction (h : lineTokens line = .ok (before ++ name :: token :: after))
    (hk : name.kind = .identifier) (hcolon : token.kind = .colon)
    (hl : t.registry.lookup name.value = none) :
    (t.functionDiagnostic name.value name.offset).Accurate t line := by
  rcases wordAt_of_token h hk with ⟨n, hn, hword⟩
  rcases standsAt_of_tokens h with ⟨m, hm, hstands⟩
  have hmn : m = n := by omega
  have hvalue := (tiles_of_lineTokens h).matches_value token (by simp)
  rw [hcolon] at hvalue
  have htext : token.value.toList = [':'] := hvalue
  rw [htext, hmn] at hstands
  exact ⟨n, hn, hword, hstands, Table.not_mem_names_of_lookup hl⟩

theorem accurate_arity {call : OpenCall} {args : List Outline.Argument}
    (h : lineTokens line = .ok (before ++ call.name :: (body ++ rest)))
    (hk : call.name.kind = .identifier)
    (hfound : t.registry.lookup call.name.value = some call.shape)
    (hargs : Outline.Arguments args body) (hcount : args.length = call.args.length)
    (hrest : ∀ token ∈ rest.head?, token.kind ≠ .colon)
    (ha : call.shape.arity.accepts call.args.length = false) :
    call.arityDiagnostic.Accurate t line := by
  have hname : call.shape.name = call.name.value := Table.name_of_lookup hfound
  rcases wordAt_of_token h hk with ⟨n, hn, hword⟩
  unfold OpenCall.arityDiagnostic
  rw [hname]
  exact ⟨n, hn, hword, ⟨before, call.name, args, body, rest, h, rfl, hn, hargs, hcount, hrest⟩,
    ⟨call.shape, hfound, rfl⟩, ha⟩

/-! ## What is said when a token is refused, and at the end of input -/

theorem Refusal.accurate (hline : Text.trim line.toList ≠ [])
    (h : lineTokens line = .ok (before ++ token :: after)) (hfeed : feed t {} before = .ok s)
    (hr : Refusal t s token r) : r.diagnostic.Within line ∧ r.diagnostic.Accurate t line := by
  cases hr with
  | misfit hmisfit => exact ⟨within_of_token hline h rfl, accurate_found h _⟩
  | tooDeep hk _ _ =>
    rcases standsAt_of_mark h ['['] (by rw [hk]; exact fun _ hm => hm) with ⟨n, hn, hstands⟩
    exact ⟨within_of_token hline h rfl, n, hn, Or.inr (Or.inr hstands)⟩
  | @unknownFunction stage name _ _ _ _ hstage hk hl =>
    have hpending : stage.pending? = some name := by
      rcases hstage with rfl | ⟨call, outer, rfl⟩ <;> rfl
    rcases pending_of_feed hfeed hpending with ⟨hname, earlier, rfl⟩
    rw [List.append_assoc, List.singleton_append] at h
    exact ⟨within_of_token hline h rfl, accurate_unknownFunction h hname hk hl⟩
  | unknownName hk hl =>
    rcases pending_of_feed hfeed rfl with ⟨hname, earlier, rfl⟩
    rw [List.append_assoc, List.singleton_append] at h
    exact ⟨within_of_token hline h rfl, accurate_unknownName h hname hl⟩
  | unknownArgument hk _ hl =>
    exact ⟨within_of_token hline h rfl, accurate_unknownName h hk hl⟩
  | arity hk ha =>
    rcases call_of_feed hfeed rfl with ⟨hfound, hname, earlier, args, body, rfl, hargs, hcount⟩
    rw [List.append_assoc, List.cons_append] at h
    refine ⟨within_of_token hline h rfl, accurate_arity h hname hfound hargs hcount ?_ ha⟩
    intro next hnext
    cases hnext
    exact hk

/-- A line that ends too early is reported at its end, or at the separator that ends it. -/
theorem accurate_ended {offset : Int} {e : Expectation} {found : Option String}
    (hline : Text.trim line.toList ≠ []) (h : lineTokens line = .ok tokens)
    (hfeed : feed t {} tokens = .ok s) (hs : Shortfall t (lineEnd line) s r)
    (hr : r.diagnostic = .malformed offset e found) :
    r.diagnostic.Within line ∧ r.diagnostic.Accurate t line := by
  rcases hs.offset_eq hr with ⟨hoffset, rfl⟩
  rw [separator?_of_feed hfeed] at hoffset
  rw [hr]
  have hend : lineEnd line = (Text.trimRight line.toList).length :=
    (Text.length_trimRight hline).symm
  cases hlast : tokens.getLast?.filter Token.isSeparator with
  | none =>
    have hstop : offset = lineEnd line := by
      rw [hoffset, hlast]
      rfl
    refine ⟨⟨lineEnd line, by rw [hstop]; rfl, Nat.le_add_right _ _, by rw [hend]⟩, ?_⟩
    exact ⟨lineEnd line, hstop, Or.inl hend⟩
  | some separator =>
    rw [hlast] at hoffset
    rcases Option.filter_eq_some_iff.1 hlast with ⟨hmem, hkind⟩
    rcases List.getLast?_eq_some_iff.1 hmem with ⟨earlier, rfl⟩
    refine ⟨within_of_token hline h (by rw [hoffset]; rfl), ?_⟩
    have hkinds : separator.kind = .comma ∨ separator.kind = .colon := by
      simpa [Token.isSeparator] using hkind
    rcases hkinds with hk | hk
    · rcases standsAt_of_last_mark h [','] (by rw [hk]; exact fun _ hm => hm) with
        ⟨n, hn, hstands, hlength⟩
      exact ⟨n, hoffset.trans hn, Or.inr (Or.inl ⟨Or.inl hstands, hlength.trans hend⟩)⟩
    · rcases standsAt_of_last_mark h [':'] (by rw [hk]; exact fun _ hm => hm) with
        ⟨n, hn, hstands, hlength⟩
      exact ⟨n, hoffset.trans hn, Or.inr (Or.inl ⟨Or.inr hstands, hlength.trans hend⟩)⟩

theorem Shortfall.accurate (hline : Text.trim line.toList ≠ []) (h : lineTokens line = .ok tokens)
    (hfeed : feed t {} tokens = .ok s) (hs : Shortfall t (lineEnd line) s r) :
    r.diagnostic.Within line ∧ r.diagnostic.Accurate t line := by
  have hs' := hs
  cases hs' with
  | empty =>
    -- nothing was read of a line that is not blank
    have htokens := eq_nil_of_feed_start hfeed rfl
    rw [htokens] at h
    exact absurd (tiles_of_lineTokens h).spelling_eq.symm hline
  | afterComma | afterColon | functionName | colonAfterName | unclosed _ =>
    exact accurate_ended hline h hfeed hs rfl
  | unknownName hl =>
    rcases pending_of_feed hfeed rfl with ⟨hname, earlier, rfl⟩
    exact ⟨within_of_token hline h rfl, accurate_unknownName h hname hl⟩
  | arity ha =>
    rcases call_of_feed hfeed rfl with ⟨hfound, hname, earlier, args, body, rfl, hargs, hcount⟩
    rw [← List.append_nil body] at h
    exact ⟨within_of_token hline h rfl, accurate_arity h hname hfound hargs hcount (by simp) ha⟩

/-! ## A whole line -/

theorem accurate_unmatched (hline : Text.trim line.toList ≠ []) {u : Unmatched}
    (h : scan (Text.indent line.toList) (Text.trim line.toList) = .error u) :
    u.diagnostic.Within line ∧ u.diagnostic.Accurate t line := by
  rcases scan_eq_error h with ⟨before, after, htrim, hoffset, _, _⟩
  rcases Text.exists_blanks line.toList with ⟨left, right, hchars, hlength, _, _⟩
  refine ⟨⟨u.offset, rfl, ?_, ?_⟩, u.offset, rfl, ?_, left ++ before, after ++ right, ?_, ?_⟩
  · omega
  · rw [Text.length_trimRight hline, htrim, List.length_append, List.length_cons]
    omega
  · intro hempty
    have hchar := congrArg String.toList hempty
    simp at hchar
  · rw [htrim] at hchars
    simpa using hchars
  · rw [List.length_append, hlength, hoffset]

/-- A blank line has no keys, whatever the tables are. -/
theorem parse_blank (h : Text.trim line.toList = []) : parse t line = .error .emptyDefinition := by
  unfold parse lineTokens
  rw [h, scan_nil]
  rfl

/-- Every diagnostic of a line that is not blank has its place, and is accurate. -/
theorem accurate_of_parse_eq_error (hline : Text.trim line.toList ≠ [])
    (h : parse t line = .error d) : d.Within line ∧ d.Accurate t line := by
  rcases parse_eq_error h with ⟨u, hscan, rfl⟩ | ⟨tokens, r, hlex, hread, rfl⟩
  · exact accurate_unmatched hline hscan
  · rcases readAll_eq_error_iff.1 hread with
      ⟨before, token, after, s, rfl, hfeed, hrefused⟩ | ⟨s, hfeed, hshort⟩
    · exact hrefused.accurate hline hlex hfeed
    · exact hshort.accurate hline hlex hfeed

/-- A line is reported as empty just when it is blank. -/
theorem eq_emptyDefinition_iff (h : parse t line = .error d) :
    d = .emptyDefinition ↔ Text.trim line.toList = [] := by
  constructor
  · rintro rfl
    by_contra hline
    rcases (accurate_of_parse_eq_error hline h).1 with ⟨n, hn, _⟩
    cases hn
  · intro hline
    rw [parse_blank hline] at h
    cases h
    rfl

/-- **Diagnostics never misreport.** A line is reported as empty just when it is blank. Every other
diagnostic points into the line without the blanks around it or right behind it, and what it says of
the characters there and of the tables is so. -/
theorem parse_error_accurate (h : parse t line = .error d) :
    (d = .emptyDefinition ↔ Text.trimmed line = "") ∧
      (d ≠ .emptyDefinition → d.Within line) ∧ d.Accurate t line := by
  have hempty := eq_emptyDefinition_iff h
  refine ⟨hempty.trans (trimmed_eq_empty_iff line).symm, ?_, ?_⟩
  · intro hd
    exact (accurate_of_parse_eq_error (mt hempty.2 hd) h).1
  · by_cases hline : Text.trim line.toList = []
    · rw [hempty.2 hline]
      exact (trimmed_eq_empty_iff line).2 hline
    · exact (accurate_of_parse_eq_error hline h).2

theorem parse_error_accurate_arity :
    parse .builtin "  or:[asn:x:[country:y]]:ip6ttl " =
        .error (.arityMismatch "asn" (.exact 1) 2 6) ∧
      (Diagnostic.arityMismatch "asn" (.exact 1) 2 6).Within "  or:[asn:x:[country:y]]:ip6ttl " ∧
      (Diagnostic.arityMismatch "asn" (.exact 1) 2 6).Accurate .builtin
        "  or:[asn:x:[country:y]]:ip6ttl " := by
  have h : parse .builtin "  or:[asn:x:[country:y]]:ip6ttl " =
      .error (.arityMismatch "asn" (.exact 1) 2 6) := by
    cbv
  have haccurate := parse_error_accurate h
  exact ⟨h, haccurate.2.1 (by decide), haccurate.2.2⟩

end Direct

end TrafficKey
