import TrafficKey.Proofs.Agreement
import TrafficKey.Proofs.Places
import TrafficKey.Proofs.RoundTrip

/-!
# How deep brackets are nested

Both parsers count the brackets that are open. The counter is the number of opening brackets read so
far less the number of closing ones, so what was closed before, in the same key or in another one, does
not count. No bracket is read that would be open within 64 others, and the first one of this kind is
where a definition that nests too deep, and is otherwise well-formed, is rejected.
-/

namespace TrafficKey

/-- How many brackets are open after the characters. -/
def openBrackets (cs : List Char) : Int :=
  cs.count '[' - cs.count ']'

/-- At `n` a bracket is opened within `level` open ones. -/
def OpensAt (cs : List Char) (level n : Nat) : Prop :=
  cs[n]? = some '[' ∧ openBrackets (cs.take n) = level

theorem openBrackets_append (cs more : List Char) :
    openBrackets (cs ++ more) = openBrackets cs + openBrackets more := by
  unfold openBrackets
  rw [List.count_append, List.count_append]
  omega

theorem OpensAt.of_append {cs more : List Char} {level n : Nat}
    (h : OpensAt (cs ++ more) level n) (hn : n < cs.length) : OpensAt cs level n := by
  obtain ⟨hopen, hlevel⟩ := h
  rw [List.getElem?_append_left hn] at hopen
  rw [List.take_append_of_le_length (Nat.le_of_lt hn)] at hlevel
  exact ⟨hopen, hlevel⟩

theorem opensAt_length {cs more : List Char} {level : Nat} (h : openBrackets cs = level) :
    OpensAt (cs ++ '[' :: more) level cs.length := by
  constructor
  · simp
  · rw [List.take_left]
    exact h

/-- By how much a token changes the number of open brackets. -/
def TokenKind.nesting : TokenKind → Int
  | .lbracket => 1
  | .rbracket => -1
  | _ => 0

theorem openBrackets_of_matches {kind : TokenKind} {text : List Char} (h : kind.Matches text) :
    openBrackets text = kind.nesting := by
  cases kind with
  | identifier =>
    -- neither bracket is an identifier character
    have hopen : '[' ∉ text := fun hmem => absurd (h.2 '[' hmem) (by decide)
    have hclose : ']' ∉ text := fun hmem => absurd (h.2 ']' hmem) (by decide)
    unfold openBrackets
    rw [List.count_eq_zero_of_not_mem hopen, List.count_eq_zero_of_not_mem hclose]
    rfl
  | colon | comma | lbracket | rbracket =>
    cases h
    decide
  | eof => exact absurd h id

namespace Direct

variable {t : Tables} {s s' : State} {token : Token} {tokens before after : List Token}
  {cs : List Char}

/-! ## The counter of the direct parser -/

theorem Step.depth_eq (h : Step t s token s') (hs : s.stage.parents.length ≤ s.depth) :
    (s'.depth : Int) = s.depth + token.kind.nesting := by
  cases h with
  | keyName _ hk | openKey hk _ | endName hk _ | literal hk _ | key hk _ _ | openBracket hk _ _
  | nextArgument hk | endComputed hk _ | nestedName hk | openNested hk _ =>
    simp [hk, TokenKind.nesting]
  | @closeBracket _ _ _ outer _ _ depth hk _ =>
    -- a call with another one around it stands in a bracket
    have hopen : outer.length + 1 ≤ depth := hs
    show ((depth - 1 : Nat) : Int) = depth + token.kind.nesting
    rw [hk]
    simp only [TokenKind.nesting]
    omega

theorem Step.depth_lt (h : Step t s token s') (hk : token.kind = .lbracket) :
    s.depth < maxDepth := by
  cases h with
  | openBracket _ _ hdepth => exact hdepth
  | keyName _ hother | openKey hother _ | endName hother _ | literal hother _ | key hother _ _
  | nextArgument hother | endComputed hother _ | closeBracket hother _ | nestedName hother
  | openNested hother _ =>
    rw [hother] at hk
    cases hk

/-- The counter is the number of brackets that are open. -/
theorem depth_of_feed (h : feed t {} tokens = .ok s)
    (hvalues : ∀ token ∈ tokens, token.kind.Matches token.value.toList) :
    (s.depth : Int) = openBrackets (spelling tokens) := by
  induction tokens using List.reverseRecOn generalizing s with
  | nil =>
    cases h
    rfl
  | append_singleton done token ih =>
    rw [List.forall_mem_append] at hvalues
    obtain ⟨m, hdone, hstep⟩ := feed_snoc.1 h
    have hdepth := hstep.depth_eq (Nat.le_of_eq (feed_wellFormed hdone).depth.symm)
    have hvalue := openBrackets_of_matches (hvalues.2 token (by simp))
    rw [hdepth, ih hdone hvalues.1, spelling_append, openBrackets_append, spelling_cons,
      spelling_nil, List.append_nil, hvalue]

/-- No bracket has been read that would have been open within 64 others. -/
theorem not_opensAt_of_feed (h : feed t {} tokens = .ok s)
    (hvalues : ∀ token ∈ tokens, token.kind.Matches token.value.toList) (n : Nat) :
    ¬ OpensAt (spelling tokens) maxDepth n := by
  induction tokens using List.reverseRecOn generalizing s with
  | nil => simp [OpensAt]
  | append_singleton done token ih =>
    intro hopens
    rw [List.forall_mem_append] at hvalues
    obtain ⟨m, hdone, hstep⟩ := feed_snoc.1 h
    rw [spelling_append, spelling_cons, spelling_nil, List.append_nil] at hopens
    by_cases hn : n < (spelling done).length
    · exact ih hdone hvalues.1 (hopens.of_append hn)
    · -- the bracket is the last token, and was read at a smaller depth
      obtain ⟨hchar, hlevel⟩ := hopens
      rw [List.getElem?_append_right (by omega)] at hchar
      have hmem : '[' ∈ token.value.toList := List.mem_of_getElem? hchar
      obtain ⟨hk, htext⟩ := eq_mark_of_mem rfl (hvalues.2 token (by simp)) hmem
      have hlen : n = (spelling done).length := by
        rw [htext] at hchar
        have hlt := (List.getElem?_eq_some_iff.1 hchar).1
        rw [List.length_singleton] at hlt
        omega
      rw [hlen, List.take_left, ← depth_of_feed hdone hvalues.1] at hlevel
      have hlt := hstep.depth_lt hk
      omega

/-! ## Where the limit is passed -/

/-- A token is refused as one open bracket too many only where it is one. -/
theorem Refusal.tooDeep_inv {r : Rejection} {offset : Int} (h : Refusal t s token r)
    (hr : r.diagnostic = .malformed offset .lessNesting none) :
    ∃ colon call outer, s.stage = .argument colon call outer ∧ token.kind = .lbracket ∧
      call.nextKind ≠ some .literal ∧ maxDepth ≤ s.depth ∧ token.offset = offset := by
  cases h with
  | tooDeep hk hkind hdepth =>
    cases hr
    exact ⟨_, _, _, rfl, hk, hkind, hdepth, rfl⟩
  | misfit | unknownFunction | unknownName | unknownArgument | arity => cases hr

theorem isLeast_opensAt (htiles : Tiles 0 cs (before ++ token :: after))
    (hbefore : feed t {} before = .ok s) (hk : token.kind = .lbracket)
    (hdepth : maxDepth ≤ s.depth) :
    IsLeast {n | OpensAt cs maxDepth n} (spelling before).length := by
  have hvalues := htiles.matches_value
  rw [List.forall_mem_append, List.forall_mem_cons] at hvalues
  obtain ⟨hvalues, hvalue, _⟩ := hvalues
  have hcs : cs = spelling before ++ '[' :: spelling after := by
    rw [hk] at hvalue
    have htext : token.value.toList = ['['] := hvalue
    rw [← htiles.spelling_eq, spelling_append, spelling_cons, htext]
    rfl
  constructor
  · -- the counter never passes the limit
    have hlimit : s.depth = maxDepth := by
      have hwell := feed_wellFormed hbefore
      have hle : s.depth ≤ maxDepth := hwell.depth ▸ hwell.limit
      omega
    have hopen := depth_of_feed hbefore hvalues
    rw [hlimit] at hopen
    rw [hcs]
    exact opensAt_length hopen.symm
  · intro n hn
    rw [hcs] at hn
    by_contra hlt
    exact not_opensAt_of_feed hbefore hvalues n (hn.of_append (Nat.lt_of_not_le hlt))

/-- The text of a definition that nests too deep is refused at an opening bracket. -/
theorem exists_refusal_of_text {d : Definition} (hwell : d.WellFormed t)
    (hwords : ∀ w ∈ d.words, isName w = true) (hdeep : d.TooDeep) :
    ∃ before token after s r, Tiles 0 d.text.toList (before ++ token :: after) ∧
      feed t {} before = .ok s ∧ Refusal t s token r ∧
      r.diagnostic = .malformed token.offset .lessNesting none := by
  obtain ⟨tokens, htiles, hout⟩ := readsTo_text hwell hwords 0
  cases hfeed : feed t {} tokens with
  | ok s =>
    -- nothing that is read nests too deep
    rw [hfeed] at hout
    cases hout with
    | read hfinish =>
      obtain ⟨key, hkey, hlt⟩ := hdeep
      have hle := (hfinish.wellFormed (feed_wellFormed hfeed) key hkey).2
      omega
  | error r =>
    rw [hfeed] at hout
    cases hout with
    | tooDeep _ hr =>
      obtain ⟨before, token, after, s, rfl, hbefore, hstep⟩ := foldlM_eq_error.1 hfeed
      have hrefused := Refusal.of_step_eq hstep
      obtain ⟨_, _, _, _, _, _, _, hoffset⟩ := hrefused.tooDeep_inv hr
      exact ⟨before, token, after, s, r, htiles, hbefore, hrefused, hoffset ▸ hr⟩

end Direct

namespace Staged

variable {σ : Type} {e : Outline.Engine σ} {t : Tables}

/-- Where the direct parser refuses one open bracket too many, the staged parser does. -/
theorem step_tooDeep {base length : Nat} {s : Direct.State} {st : State σ} {m : Outline.Machine}
    {token : Token} {r : Direct.Rejection} {offset : Int} (h : Simulates t s ⟨st.checker, m⟩)
    (hrefused : Direct.Refusal t s token r)
    (hr : r.diagnostic = .malformed offset .lessNesting none) :
    step e t base length st token =
      .error (.rejected (.malformed (base + token.offset) .lessNesting none)) := by
  obtain ⟨colon, call, outer, hs, hk, hkind, hdepth, _⟩ := hrefused.tooDeep_inv hr
  have hdeep : maxDepth ≤ st.checker.depth := h.depth ▸ hdepth
  have hmatch := h.stage
  rw [hs] at hmatch
  generalize m.place = place at hmatch
  cases hmatch with
  | argument hstage _ hstack =>
    exact step_of_fault (check_eq_error (onToken_tooDeep hstage hstack hk hkind hdeep))

/-- A line without blanks is rejected at one open bracket too many if the direct parser gets there. -/
theorem parseWith_of_too_deep {line : String} {before after : List Token} {token : Token}
    {s : Direct.State} {r : Direct.Rejection} (he : e.Conforms)
    (htiles : Tiles 0 line.toList (before ++ token :: after))
    (hbefore : Direct.feed t {} before = .ok s) (hrefused : Direct.Refusal t s token r)
    (hr : r.diagnostic = .malformed token.offset .lessNesting none) :
    parseWith e t line = .error (.rejected r.diagnostic) := by
  have htrim := trim_of_not_isBlank htiles.not_isBlank
  have hindent := indent_of_not_isBlank htiles.not_isBlank
  have hvalues := htiles.matches_value
  rw [List.forall_mem_append] at hvalues
  have hblank : line.toList ≠ [] := by
    intro hnil
    rw [hnil] at htiles
    have hnone := scan_eq_ok_iff.2 htiles
    simp [scan_nil] at hnone
  obtain ⟨st, m, hrun, hsim⟩ := exists_run_of_feed he 0 line.toList.length hvalues.1 hbefore
  have hfail := foldlM_eq_error.2
    ⟨before, token, after, st, rfl, hrun, step_tooDeep hsim hrefused hr⟩
  have hparse := parseWith_of_tiles he t (htrim.symm ▸ hblank) (htrim.symm ▸ htiles)
  rw [hparse, htrim, hindent, readTokens, hfail, hr]
  simp [bind, Except.bind]

end Staged

/-- **The nesting limit is exact.** The text of a definition that would be well-formed but has more than
64 brackets open at once is rejected by both parsers, at the first bracket that is opened within 64 open
ones. Brackets that were closed before it do not count. -/
theorem parse_text_of_too_deep {t : Tables} {d : Definition} (hwell : d.WellFormed t)
    (hwords : ∀ w ∈ d.words, isName w = true) (hdeep : ∃ key ∈ d.keys, 64 < key.depth) :
    ∃ n : Nat, IsLeast {n | OpensAt d.text.toList 64 n} n ∧
      Direct.parse t d.text = .error (.malformed n .lessNesting none) ∧
      ∀ {σ : Type} (e : Outline.Engine σ), e.Conforms →
        Staged.parseWith e t d.text = .error (.rejected (.malformed n .lessNesting none)) := by
  obtain ⟨before, token, after, s, r, htiles, hbefore, hrefused, hr⟩ :=
    Direct.exists_refusal_of_text hwell hwords hdeep
  obtain ⟨_, _, _, _, hk, _, hdepth, _⟩ := hrefused.tooDeep_inv hr
  have hoffset : token.offset = ((spelling before).length : Nat) := by
    simpa using htiles.offset_eq
  refine ⟨(spelling before).length, Direct.isLeast_opensAt htiles hbefore hk hdepth, ?_⟩
  rw [← hoffset, ← hr]
  constructor
  · have hread : Direct.readAll t (before ++ token :: after) (lineEnd d.text) = .error r :=
      Direct.readAll_eq_error_iff.2 (Or.inl ⟨before, token, after, s, rfl, hbefore, hrefused⟩)
    rw [Direct.parse_of_lineTokens htiles.lineTokens_eq.1, hread]
    rfl
  · intro σ e he
    exact Staged.parseWith_of_too_deep he htiles hbefore hrefused hr

/-- A key name in `n` calls of `null`, one around the other. -/
def nullChain : Nat → Argument
  | 0 => .key ⟨"ip6ttl", "time to live"⟩
  | n + 1 => .nested ⟨.plain, "null"⟩ [nullChain n, .literal "none"]

/-- One more call of `null` as a key. -/
def nullKey (n : Nat) : Key :=
  .computed ⟨⟨.plain, "null"⟩, [nullChain n, .literal "none"]⟩

theorem nullChain_wellFormed (n : Nat) : (nullChain n).WellFormed .builtin := by
  induction n with
  | zero => exact .key rfl
  | succ n ih =>
    have htakes : ArgKind.key.takes (nullChain n) = true := by
      cases n <;> rfl
    refine .nested rfl ⟨rfl, rfl, ?_⟩ ?_
    · rintro (_ | _ | i) arg hi <;> cases hi
      · exact ⟨.key, rfl, htakes⟩
      · exact ⟨.literal, rfl, rfl⟩
    · intro arg harg
      rcases List.mem_pair.1 harg with rfl | rfl
      · exact ih
      · exact .literal "none"

theorem nullChain_words (n : Nat) : ∀ w ∈ (nullChain n).words, isName w = true := by
  induction n with
  | zero => decide
  | succ n ih =>
    have hnull : isName "null" = true := by decide
    have hnone : ∀ w ∈ Argument.wordsAll [.literal "none"], isName w = true := by decide
    exact List.forall_mem_cons.2 ⟨hnull, List.forall_mem_append.2 ⟨ih, hnone⟩⟩

theorem nullKey_depth (n : Nat) : (nullKey n).depth = n := by
  have hchain : (nullChain n).depth = n := by
    induction n with
    | zero => rfl
    | succ n ih => simp [nullChain, Argument.depth, Argument.depths, ih]
  simp [nullKey, Key.depth, Argument.depths, Argument.depth, hchain]

/-- The 40 brackets of the first key are closed before the second key opens its 65. -/
theorem parse_text_of_too_deep_chains :
    let d : Definition := .snoc [nullKey 40] (nullKey 65)
    ∃ n : Nat, IsLeast {n | OpensAt d.text.toList 64 n} n ∧
      Direct.parse .builtin d.text = .error (.malformed n .lessNesting none) ∧
      ∀ {σ : Type} (e : Outline.Engine σ), e.Conforms →
        Staged.parseWith e .builtin d.text =
          .error (.rejected (.malformed n .lessNesting none)) := by
  intro d
  have hwell : d.WellFormed .builtin := by
    intro key hkey
    rcases List.mem_pair.1 hkey with rfl | rfl
    · exact .computed (nullChain_wellFormed 41)
    · exact .computed (nullChain_wellFormed 66)
  have hwords : ∀ w ∈ d.words, isName w = true := by
    intro w hw
    obtain ⟨key, hkey, hw⟩ := List.mem_flatMap.1 hw
    rcases List.mem_pair.1 hkey with rfl | rfl
    · exact nullChain_words 41 w hw
    · exact nullChain_words 66 w hw
  have hdeep : 64 < (nullKey 65).depth := by
    rw [nullKey_depth]
    omega
  exact parse_text_of_too_deep hwell hwords ⟨nullKey 65, by simp [d, Definition.snoc], hdeep⟩

end TrafficKey
