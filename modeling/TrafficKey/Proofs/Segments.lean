import TrafficKey.Proofs.Accuracy
import TrafficKey.Proofs.Offsets
import TrafficKey.Text.Split

/-!
# A definition is read key by key

The keys of a line stand between its commas, and each is read as it would be read alone: what was read
before a comma is kept and never looked at again, and a comma is refused just where the end of input
is. So a line is a definition when all its parts are, its keys are theirs, and otherwise the first part
that fails decides how the line fails.
-/

namespace TrafficKey

/-! ## The parts of a line -/

namespace Text

variable {sep : Char} {cs : List Char}

theorem splitChars_of_not_mem (h : sep ∉ cs) : splitChars sep cs = [cs] := by
  induction cs with
  | nil => rfl
  | cons c cs ih =>
    rw [List.mem_cons, not_or] at h
    simp [splitChars, Ne.symm h.1, ih h.2]

theorem splitChars_append {part : List Char} (h : sep ∉ part) (rest : List Char) :
    splitChars sep (part ++ sep :: rest) = part :: splitChars sep rest := by
  induction part with
  | nil => simp [splitChars]
  | cons c part ih =>
    rw [List.mem_cons, not_or] at h
    simp [splitChars, Ne.symm h.1, ih h.2]

/-- Induction along the parts: a text is one part, or its first part is followed by a separator. -/
theorem part_induction (sep : Char) {motive : List Char → Prop}
    (last : ∀ cs, sep ∉ cs → motive cs)
    (next : ∀ part rest, sep ∉ part → motive rest → motive (part ++ sep :: rest)) :
    ∀ cs, motive cs := by
  intro cs
  induction hn : cs.length using Nat.strong_induction_on generalizing cs with
  | _ n ih =>
    by_cases hsep : sep ∈ cs
    · rcases List.eq_append_cons_of_mem hsep with ⟨part, rest, rfl, hpart⟩
      have hlt : rest.length < n := by
        rw [← hn, List.length_append, List.length_cons]
        omega
      exact next part rest hpart (ih rest.length hlt rest rfl)
    · exact last cs hsep

/-- A part has no separator, and all its characters are the text's. -/
theorem of_mem_splitChars {part : List Char} (h : part ∈ splitChars sep cs) :
    sep ∉ part ∧ ∀ c ∈ part, c ∈ cs := by
  induction cs using part_induction sep with
  | last cs hsep =>
    rw [splitChars_of_not_mem hsep, List.mem_singleton] at h
    subst h
    exact ⟨hsep, fun c hc => hc⟩
  | next first rest hfirst ih =>
    rw [splitChars_append hfirst] at h
    rcases List.mem_cons.1 h with rfl | h
    · exact ⟨hfirst, fun c hc => List.mem_append_left _ hc⟩
    · refine ⟨(ih h).1, fun c hc => ?_⟩
      exact List.mem_append_right _ (List.mem_cons_of_mem _ ((ih h).2 c hc))

/-- A character that is not the separator is in some part. -/
theorem exists_mem_splitChars {c : Char} (h : c ∈ cs) (hne : c ≠ sep) :
    ∃ part ∈ splitChars sep cs, c ∈ part := by
  induction cs using part_induction sep with
  | last cs hsep =>
    rw [splitChars_of_not_mem hsep]
    exact ⟨cs, by simp, h⟩
  | next first rest hfirst ih =>
    rw [splitChars_append hfirst]
    rcases List.mem_append.1 h with h | h
    · exact ⟨first, by simp, h⟩
    · rcases List.mem_cons.1 h with rfl | h
      · exact absurd rfl hne
      · rcases ih h with ⟨part, hpart, hc⟩
        exact ⟨part, List.mem_cons_of_mem first hpart, hc⟩

theorem mem_split_iff {part s : String} :
    part ∈ split sep s ↔ part.toList ∈ splitChars sep s.toList := by
  unfold split
  constructor
  · intro h
    rcases List.mem_map.1 h with ⟨cs, hcs, rfl⟩
    rwa [String.toList_ofList]
  · intro h
    exact List.mem_map.2 ⟨_, h, String.ofList_toList⟩

theorem trim_of_trimmed {s : String} (h : trimmed s = s) : trim s.toList = s.toList := by
  rwa [← String.toList_inj, trimmed, String.toList_ofList] at h

end Text

/-- A beginning without `x` ends before the first `x`. -/
theorem exists_append_of_not_mem {α : Type} {x : α} {text tail part rest : List α}
    (h : text ++ tail = part ++ x :: rest) (hx : x ∉ text) :
    ∃ more, part = text ++ more ∧ tail = more ++ x :: rest := by
  rcases List.append_eq_append_iff.1 h with hmore | ⟨more, rfl, hmore⟩
  · exact hmore
  · cases more with
    | nil => exact ⟨[], by simp, hmore.symm⟩
    | cons y more =>
      cases hmore
      exact absurd (by simp) hx

/-- A comma is a token by itself, and no token reaches across it. -/
theorem Tiles.cut {offset : Nat} {cs part rest : List Char} {tokens : List Token}
    (h : Tiles offset cs tokens) (hcs : cs = part ++ ',' :: rest) (hpart : ',' ∉ part) :
    ∃ before comma after next, tokens = before ++ comma :: after ∧ comma.kind = .comma ∧
      Tiles offset part before ∧ Tiles next rest after := by
  induction h generalizing part with
  | nil offset => simp at hcs
  | @cons offset kind text tail tokens hm hmax htail ih =>
    by_cases hmem : ',' ∈ text
    · -- the token is the comma, and nothing stands before it
      rcases eq_mark_of_mem rfl hm hmem with ⟨hkind, rfl⟩
      cases part with
      | nil =>
        cases hcs
        exact ⟨[], _, tokens, _, rfl, hkind, .nil offset, htail⟩
      | cons c part =>
        cases hcs
        exact absurd (by simp) hpart
    · rcases exists_append_of_not_mem hcs hmem with ⟨more, rfl, rfl⟩
      have hmore : ',' ∉ more := fun h => hpart (List.mem_append_right _ h)
      rcases ih rfl hmore with ⟨before, comma, after, next, rfl, hcomma, hbefore, hafter⟩
      refine ⟨_ :: before, comma, after, next, rfl, hcomma, .cons hm ?_ hbefore, hafter⟩
      intro c hc
      refine hmax c ?_
      rw [List.head?_append, Option.mem_def.1 hc]
      rfl

theorem Tiles.kind_ne_comma {offset : Nat} {cs : List Char} {tokens : List Token}
    (h : Tiles offset cs tokens) (hcs : ',' ∉ cs) : ∀ token ∈ tokens, token.kind ≠ .comma := by
  intro token htoken hk
  have hvalue := h.matches_value token htoken
  rw [hk] at hvalue
  have hcomma : token.value.toList = [','] := hvalue
  refine hcs ?_
  rw [← h.spelling_eq]
  exact List.mem_flatMap.2 ⟨token, htoken, by simp [hcomma]⟩

/-- The kind of a diagnostic when its line is part of a longer one: no key is then a missing key. -/
def Diagnostic.kindInLine : Diagnostic → DiagnosticKind
  | .emptyDefinition => .malformed
  | d => d.kind

@[simp] theorem Diagnostic.kindInLine_shift (d : Diagnostic) (n : Int) :
    (d.shift n).kindInLine = d.kindInLine := by
  cases d <;> rfl

namespace Direct

variable {t : Tables} {s s' : State} {token comma : Token} {r : Rejection} {d : Definition}
  {keys : List Key} {stop : Int}

/-! ## What was read before -/

/-- The keys read before do not matter for a token. -/
theorem Step.prepend (h : Step t s token s') (keys : List Key) (read : Nat) :
    Step t ⟨s.stage, keys ++ s.keys, read, s.depth⟩ token
      ⟨s'.stage, keys ++ s'.keys, read + 1, s'.depth⟩ := by
  cases h with
  | keyName hstage hk => exact .keyName hstage hk
  | openKey hk hl => exact .openKey hk hl
  | endName hk hl =>
    rw [← List.append_assoc]
    exact .endName hk hl
  | literal hk hkind => exact .literal hk hkind
  | key hk hkind hl => exact .key hk hkind hl
  | openBracket hk hkind hdepth => exact .openBracket hk hkind hdepth
  | nextArgument hk => exact .nextArgument hk
  | endComputed hk ha =>
    rw [← List.append_assoc]
    exact .endComputed hk ha
  | closeBracket hk ha => exact .closeBracket hk ha
  | nestedName hk => exact .nestedName hk
  | openNested hk hl => exact .openNested hk hl

theorem Refusal.prepend (h : Refusal t s token r) (keys : List Key) (read : Nat) :
    ∃ read', Refusal t ⟨s.stage, keys ++ s.keys, read, s.depth⟩ token
      ⟨r.diagnostic, read', r.depth⟩ := by
  cases h with
  | misfit hmisfit => exact ⟨_, .misfit hmisfit⟩
  | tooDeep hk hkind hdepth => exact ⟨_, .tooDeep hk hkind hdepth⟩
  | unknownFunction hstage hk hl => exact ⟨_, .unknownFunction hstage hk hl⟩
  | unknownName hk hl => exact ⟨_, .unknownName hk hl⟩
  | unknownArgument hk hkind hl => exact ⟨_, .unknownArgument hk hkind hl⟩
  | arity hk ha => exact ⟨_, .arity hk ha⟩

/-- Only a comma ends a key. -/
theorem Step.keys_eq (h : Step t s token s') (hk : token.kind ≠ .comma) : s'.keys = s.keys := by
  cases h with
  | endName hcomma | endComputed hcomma => exact absurd hcomma hk
  | keyName | openKey | literal | key | openBracket | nextArgument | closeBracket | nestedName
  | openNested => rfl

theorem Finish.eq_snoc (h : Finish t s d) : ∃ key, d = .snoc s.keys key := by
  cases h with
  | name hl => exact ⟨_, rfl⟩
  | computed ha => exact ⟨_, rfl⟩

theorem Finish.depth_eq (h : Finish t s d) (hs : s.WellFormed t) : s.depth = 0 := by
  cases h with
  | name hl => exact hs.depth
  | computed ha => exact hs.depth

/-! ## A key later in a line -/

/-- The second state is the first one later in a line, where `keys` have been read and a comma. -/
inductive Later (keys : List Key) : State → State → Prop
  /-- nothing was read since the comma -/
  | start {comma : Token} {more : List Key} {read read' depth : Nat} :
      Later keys ⟨.start, more, read, depth⟩ ⟨.afterComma comma, keys ++ more, read', depth⟩
  /-- something was read since the comma -/
  | inside {s : State} (h : s.stage ≠ .start) (read : Nat) :
      Later keys s ⟨s.stage, keys ++ s.keys, read, s.depth⟩

theorem Later.afterComma (comma : Token) (keys : List Key) (read : Nat) :
    Later keys {} ⟨.afterComma comma, keys, read, 0⟩ := by
  have h : Later keys {} ⟨.afterComma comma, keys ++ [], read, 0⟩ := .start
  rwa [List.append_nil] at h

/-- The second rejection is the first one's counterpart in a longer line. -/
def Rejection.Kept (r r' : Rejection) : Prop :=
  r'.diagnostic.kind = r.diagnostic.kindInLine

/-! ### One token -/

theorem Step.later {s₁ : State} (h : Step t s token s₁) (hl : Later keys s s') :
    ∃ s₁', Step t s' token s₁' ∧ Later keys s₁ s₁' := by
  cases hl with
  | start =>
    have hne := h.stage_ne_start
    cases h with
    | keyName _ hk => exact ⟨_, .keyName (Or.inr ⟨_, rfl⟩) hk, .inside hne _⟩
  | inside _ read => exact ⟨_, h.prepend keys read, .inside h.stage_ne_start _⟩

theorem Refusal.later (h : Refusal t s token r) (hl : Later keys s s') :
    ∃ r', Refusal t s' token r' ∧ r.Kept r' := by
  cases hl with
  | start =>
    cases h with
    | misfit hmisfit =>
      cases hmisfit with
      | keyStart _ hk => exact ⟨_, .misfit (.keyStart (Or.inr ⟨_, rfl⟩) hk), rfl⟩
    | unknownFunction hstage => simp at hstage
  | inside _ read =>
    rcases h.prepend keys read with ⟨read', h'⟩
    refine ⟨_, h', ?_⟩
    cases h <;> rfl

theorem step_later (hl : Later keys s s') (token : Token) :
    Agree (Later keys) Rejection.Kept (step t s token) (step t s' token) := by
  refine .intro ?_ ?_
  · intro s₁ hstep
    rcases (Step.of_step_eq hstep).later hl with ⟨s₁', hstep', hl'⟩
    exact ⟨s₁', hstep'.step_eq, hl'⟩
  · intro r hstep
    rcases (Refusal.of_step_eq hstep).later hl with ⟨r', hr', hkept⟩
    exact ⟨r', hr'.step_eq, hkept⟩

/-! ### The end of a key -/

theorem Finish.later (h : Finish t s d) (hl : Later keys s s') :
    ∃ d', Finish t s' d' ∧ d'.keys = keys ++ d.keys := by
  cases hl with
  | start => cases h
  | inside _ read =>
    cases h with
    | name hfound => exact ⟨_, .name hfound, List.append_assoc _ _ _⟩
    | computed ha => exact ⟨_, .computed ha, List.append_assoc _ _ _⟩

theorem Shortfall.later (h : Shortfall t stop s r) (hl : Later keys s s') (stop' : Int) :
    ∃ r', Shortfall t stop' s' r' ∧ r.Kept r' := by
  cases hl with
  | start =>
    cases h
    exact ⟨_, .afterComma, rfl⟩
  | inside hne read =>
    cases h with
    | empty => exact absurd rfl hne
    | afterComma => exact ⟨_, .afterComma, rfl⟩
    | afterColon => exact ⟨_, .afterColon, rfl⟩
    | unclosed ha => exact ⟨_, .unclosed ha, rfl⟩
    | functionName => exact ⟨_, .functionName, rfl⟩
    | colonAfterName => exact ⟨_, .colonAfterName, rfl⟩
    | unknownName hfound => exact ⟨_, .unknownName hfound, rfl⟩
    | arity ha => exact ⟨_, .arity ha, rfl⟩

/-- A comma is accepted where the end of input is, and the next key begins as a line does. -/
theorem Finish.step_comma (h : Finish t s d) (hs : s.WellFormed t) (hl : Later keys s s')
    (hk : comma.kind = .comma) :
    ∃ s₁, Step t s' comma s₁ ∧ Later (keys ++ d.keys) {} s₁ := by
  have hdepth := h.depth_eq hs
  cases hl with
  | start => cases h
  | inside _ read =>
    rw [hdepth]
    cases h with
    | name hfound =>
      refine ⟨_, .endName hk hfound, ?_⟩
      rw [List.append_assoc]
      exact .afterComma _ _ _
    | computed ha =>
      refine ⟨_, .endComputed hk ha, ?_⟩
      rw [List.append_assoc]
      exact .afterComma _ _ _

/-- A comma is refused where the end of input is. -/
theorem Shortfall.refuses_comma (h : Shortfall t stop s r) (hl : Later keys s s')
    (hk : comma.kind = .comma) : ∃ r', Refusal t s' comma r' ∧ r.Kept r' := by
  have hname : comma.kind ≠ .identifier := by simp [hk]
  have hcolon : comma.kind ≠ .colon := by simp [hk]
  cases hl with
  | start =>
    cases h
    exact ⟨_, .misfit (.keyStart (Or.inr ⟨_, rfl⟩) hname), rfl⟩
  | inside hne read =>
    cases h with
    | empty => exact absurd rfl hne
    | afterComma => exact ⟨_, .misfit (.keyStart (Or.inr ⟨_, rfl⟩) hname), rfl⟩
    | afterColon => exact ⟨_, .misfit (.argument hname (by simp [hk])), rfl⟩
    | unclosed ha => exact ⟨_, .misfit (.unclosed ha hcolon (by simp [hk])), rfl⟩
    | functionName => exact ⟨_, .misfit (.functionName hname), rfl⟩
    | colonAfterName => exact ⟨_, .misfit (.colonAfterName hcolon), rfl⟩
    | unknownName hfound => exact ⟨_, .unknownName hcolon hfound, rfl⟩
    | arity ha => exact ⟨_, .arity hcolon ha, rfl⟩

/-! ### A whole key -/

theorem feed_later (hl : Later keys {} s) (tokens : List Token) :
    Agree (fun m m' => m.WellFormed t ∧ Later keys m m') Rejection.Kept (feed t {} tokens)
      (feed t s tokens) := by
  have h : Agree (Later keys) Rejection.Kept (feed t {} tokens) (feed t s tokens) :=
    Agree.foldlM (fun token _ a b hab => step_later hab token) hl
  exact h.imp (fun m m' hm hlater => ⟨feed_wellFormed hm, hlater⟩) (fun _ _ hkept => hkept)

/-- Tokens up to the end of a line are read as they would be alone. -/
theorem finish_agree (hl : Later keys {} s) (tokens : List Token) (stop stop' : Int) :
    Agree (fun d d' => d'.keys = keys ++ d.keys) Rejection.Kept (readAll t tokens stop)
      (feed t s tokens >>= (finish t · stop')) := by
  refine (feed_later hl tokens).bind ?_
  rintro m m' ⟨_, hm⟩
  refine .intro ?_ ?_
  · intro d hd
    rcases (Finish.of_finish_eq hd).later hm with ⟨d', hd', hkeys⟩
    exact ⟨d', hd'.finish_eq, hkeys⟩
  · intro r hr
    rcases (Shortfall.of_finish_eq hr).later hm stop' with ⟨r', hr', hkept⟩
    exact ⟨r', hr'.finish_eq, hkept⟩

/-- Tokens up to a comma are read as they would be alone. -/
theorem comma_agree (hl : Later keys {} s) (tokens : List Token) (hk : comma.kind = .comma)
    (stop : Int) :
    Agree (fun d => Later (keys ++ d.keys) {}) Rejection.Kept (readAll t tokens stop)
      (feed t s tokens >>= (step t · comma)) := by
  refine (feed_later hl tokens).bind ?_
  rintro m m' ⟨hwell, hm⟩
  refine .intro ?_ ?_
  · intro d hd
    rcases (Finish.of_finish_eq hd).step_comma hwell hm hk with ⟨s₁, hstep, hlater⟩
    exact ⟨s₁, hstep.step_eq, hlater⟩
  · intro r hr
    rcases (Shortfall.of_finish_eq hr).refuses_comma hm hk with ⟨r', hr', hkept⟩
    exact ⟨r', hr'.step_eq, hkept⟩

/-! ## A whole line -/

section

variable {cs : List Char} {tokens : List Token} {offset : Nat}

/-- The tokens of some characters of a line are read as the characters are read alone. -/
theorem readAll_of_tiles (h : Tiles offset cs tokens) :
    (readAll t tokens (offset + cs.length)).mapError Rejection.diagnostic =
      (parse t (String.ofList cs)).mapError (Diagnostic.shift offset) := by
  -- alone, the characters are cut into the same tokens, `offset` characters further left
  have hscan := scan_shift offset 0 cs
  rw [Nat.add_zero, scan_eq_ok_iff.2 h] at hscan
  cases halone : scan 0 cs with
  | error u =>
    rw [halone] at hscan
    cases hscan
  | ok alone =>
    rw [halone] at hscan
    cases hscan
    have htiles : Tiles 0 (String.ofList cs).toList alone := by
      rw [String.toList_ofList]
      exact scan_eq_ok_iff.1 halone
    rw [parse_of_lineTokens htiles.lineTokens_eq.1, htiles.lineTokens_eq.2, String.toList_ofList]
    have hread := readAll_shift t offset alone cs.length
    rw [hread]
    cases readAll t alone cs.length <;> rfl

/-- What agrees with the tokens of some characters agrees with the characters alone. -/
theorem agree_of_tiles {α : Type} {rel : Definition → α → Prop} {y : Except Rejection α}
    (htiles : Tiles offset cs tokens)
    (h : Agree rel Rejection.Kept (readAll t tokens (offset + cs.length)) y) :
    Agree rel (fun e r => r.diagnostic.kind = e.kindInLine) (parse t (String.ofList cs)) y := by
  have hline : Agree rel (fun e r => r.diagnostic.kind = e.kindInLine)
      ((readAll t tokens (offset + cs.length)).mapError Rejection.diagnostic) y := by
    rw [agree_mapError_left]
    exact h
  rw [readAll_of_tiles htiles, agree_mapError_left] at hline
  simpa using hline

/-- From a comma on, a line is read part by part. -/
theorem parts_agree (htiles : Tiles offset cs tokens) (hl : Later keys {} s) (stop : Int) :
    Agree (fun ds d => d.keys = keys ++ ds.flatMap Definition.keys)
      (fun e r => r.diagnostic.kind = e.kindInLine)
      (((Text.splitChars ',' cs).map String.ofList).mapM (parse t))
      (feed t s tokens >>= (finish t · stop)) := by
  induction cs using Text.part_induction ',' generalizing offset tokens keys s with
  | last cs hcs =>
    have hlast : Agree _ _ (parse t (String.ofList cs)) _ :=
      agree_of_tiles htiles (finish_agree hl tokens _ stop)
    have hsingle : [String.ofList cs].mapM (parse t) =
        (parse t (String.ofList cs)).map ([·]) := by
      rw [mapM_cons_eq]
      rfl
    rw [Text.splitChars_of_not_mem hcs, List.map_singleton, hsingle, agree_map_left]
    simpa using hlast
  | next part rest hpart ih =>
    -- the comma decides about its part as the end of input would, and hands over to the next part
    rcases htiles.cut rfl hpart with ⟨before, comma, after, next, rfl, hk, hbefore, hafter⟩
    have hfeed : feed t s (before ++ comma :: after) =
        (feed t s before >>= (step t · comma)) >>= (feed t · after) := by
      unfold feed
      simp only [List.foldlM_append, List.foldlM_cons, bind_assoc]
    rw [Text.splitChars_append hpart, List.map_cons, mapM_cons_eq, hfeed, bind_assoc]
    refine (agree_of_tiles hbefore (comma_agree hl before hk _)).bind ?_
    intro d m hm
    rw [agree_map_left]
    simpa using ih hafter hm

/-- A line that is cut into tokens is read part by part. -/
theorem parse_agree_parts {line : String} (hne : line ≠ "") (htrim : Text.trimmed line = line)
    (hlex : lineTokens line = .ok tokens) :
    Agree (fun ds d => d.keys = ds.flatMap Definition.keys) (fun e e' => e'.kind = e.kindInLine)
      ((Text.split ',' line).mapM (parse t)) (parse t line) := by
  have htiles := tiles_of_lineTokens hlex
  rw [Text.trim_of_trimmed htrim] at htiles
  cases tokens with
  | nil =>
    have hempty : line.toList = [] := htiles.spelling_eq.symm
    exact absurd (String.toList_eq_nil_iff.1 hempty) hne
  | cons token tokens =>
    -- before the first token it does not matter whether a comma was read
    have hfeed : readAll t (token :: tokens) (lineEnd line) =
        feed t ⟨.afterComma token, [], 0, 0⟩ (token :: tokens) >>= (finish t · (lineEnd line)) :=
      rfl
    have hparts := parts_agree (t := t) htiles (.afterComma token [] 0) (lineEnd line)
    rw [parse_of_lineTokens hlex, hfeed, agree_mapError_right]
    exact hparts

/-- Without a comma no key is complete. -/
theorem keys_of_feed (hcomma : ∀ token ∈ tokens, token.kind ≠ .comma)
    (h : feed t {} tokens = .ok s) : s.keys = [] := by
  have hstep : ∀ (done : List Token) (s : State) (token : Token) (s' : State),
      ((∀ x ∈ done, x.kind ≠ .comma) → s.keys = []) → step t s token = .ok s' →
      (∀ x ∈ done ++ [token], x.kind ≠ .comma) → s'.keys = [] := by
    intro done s token s' hs hstep hcomma
    rw [List.forall_mem_append] at hcomma
    rw [(Step.of_step_eq hstep).keys_eq (hcomma.2 token (by simp)), hs hcomma.1]
  exact foldlM_invariant hstep (fun _ => rfl) h hcomma

/-- A part is read as one key. -/
theorem eq_snoc_of_parse (htiles : Tiles offset cs tokens) (hcs : ',' ∉ cs)
    (h : parse t (String.ofList cs) = .ok d) : ∃ key, d = .snoc [] key := by
  have hread : (readAll t tokens (offset + cs.length)).mapError Rejection.diagnostic = .ok d := by
    rw [readAll_of_tiles htiles, h]
    rfl
  rcases bind_eq_ok.1 (mapError_eq_ok_iff.1 hread) with ⟨s, hfeed, hfinish⟩
  have hkeys := keys_of_feed (htiles.kind_ne_comma hcs) hfeed
  rcases (Finish.of_finish_eq hfinish).eq_snoc with ⟨key, hd⟩
  rw [hkeys] at hd
  exact ⟨key, hd⟩

end

/-- Definitions of one key each are told by their keys. -/
theorem map_snoc_keys {ds : List Definition} (h : ∀ d ∈ ds, ∃ key, d = .snoc [] key) :
    (ds.flatMap Definition.keys).map (Definition.snoc []) = ds := by
  induction ds with
  | nil => rfl
  | cons d ds ih =>
    rw [List.forall_mem_cons] at h
    rcases h with ⟨⟨key, rfl⟩, hds⟩
    rw [List.flatMap_cons, List.map_append, ih hds]
    rfl

section

variable {line part : String} {tokens : List Token}

/-- The parts of a line that is cut into tokens are cut into tokens. -/
theorem tiles_of_mem_split (htrim : Text.trimmed line = line) (hlex : lineTokens line = .ok tokens)
    (hpart : part ∈ Text.split ',' line) : ∃ tokens, Tiles 0 part.toList tokens := by
  have htiles := tiles_of_lineTokens hlex
  rw [Text.trim_of_trimmed htrim] at htiles
  have hchars := (Text.of_mem_splitChars (Text.mem_split_iff.1 hpart)).2
  exact exists_tiles 0 (fun c hc => htiles.startsToken c (hchars c hc))

theorem trimmed_of_mem_split (htrim : Text.trimmed line = line)
    (hlex : lineTokens line = .ok tokens) (hpart : part ∈ Text.split ',' line) :
    Text.trimmed part = part := by
  rcases tiles_of_mem_split htrim hlex hpart with ⟨tokens, htiles⟩
  rw [Text.trimmed, trim_of_not_isBlank htiles.not_isBlank, String.ofList_toList]

/-- A line whose parts are read is cut into tokens. -/
theorem lineTokens_of_parts (htrim : Text.trimmed line = line)
    (h : ∀ part ∈ Text.split ',' line, Text.trimmed part = part ∧ ∃ d, parse t part = .ok d) :
    ∃ tokens, lineTokens line = .ok tokens := by
  have hchars : ∀ c ∈ line.toList, StartsToken c := by
    intro c hc
    by_cases hcomma : c = ','
    · exact ⟨.comma, by rw [hcomma]; rfl⟩
    · rcases Text.exists_mem_splitChars hc hcomma with ⟨cs, hcs, hmem⟩
      have hpart : String.ofList cs ∈ Text.split ',' line := List.mem_map.2 ⟨cs, hcs, rfl⟩
      rcases h _ hpart with ⟨htrimmed, d, hd⟩
      rcases bind_eq_ok.1 hd with ⟨tokens, hlex, _⟩
      have htiles := tiles_of_lineTokens hlex
      rw [Text.trim_of_trimmed htrimmed, String.toList_ofList] at htiles
      exact htiles.startsToken c hmem
  rcases exists_tiles (Text.indent line.toList) hchars with ⟨tokens, htiles⟩
  refine ⟨tokens, ?_⟩
  unfold lineTokens
  rw [Text.trim_of_trimmed htrim, scan_eq_ok_iff.2 htiles]
  rfl

/-- The parts of a definition are its keys. -/
theorem split_of_parse (hne : line ≠ "") (htrim : Text.trimmed line = line)
    (h : parse t line = .ok d) :
    (Text.split ',' line).map (parse t) = d.keys.map fun key => .ok (.snoc [] key) := by
  rcases bind_eq_ok.1 h with ⟨tokens, hlex, _⟩
  rcases (parse_agree_parts hne htrim hlex).exists_ok_left h with ⟨ds, hparts, hkeys⟩
  have hmap := mapM_eq_ok_iff.1 hparts
  have hsingle : ∀ d ∈ ds, ∃ key, d = .snoc [] key := by
    intro d hd
    have hmem : Except.ok d ∈ (Text.split ',' line).map (parse t) := by
      rw [hmap]
      exact List.mem_map.2 ⟨d, hd, rfl⟩
    rcases List.mem_map.1 hmem with ⟨part, hpart, hparse⟩
    rcases tiles_of_mem_split htrim hlex hpart with ⟨tokens, htiles⟩
    have hcomma := (Text.of_mem_splitChars (Text.mem_split_iff.1 hpart)).1
    exact eq_snoc_of_parse htiles hcomma (by rw [String.ofList_toList, hparse])
  calc (Text.split ',' line).map (parse t) = ds.map .ok := hmap
    _ = ((ds.flatMap Definition.keys).map (Definition.snoc [])).map .ok := by
      rw [map_snoc_keys hsingle]
    _ = d.keys.map fun key => .ok (.snoc [] key) := by
      rw [hkeys, List.map_map]
      rfl

/-- A line is read if all its parts are. -/
theorem parse_of_parts (hne : line ≠ "") (htrim : Text.trimmed line = line)
    (h : ∀ part ∈ Text.split ',' line, Text.trimmed part = part ∧ ∃ d, parse t part = .ok d) :
    ∃ d, parse t line = .ok d := by
  rcases lineTokens_of_parts htrim h with ⟨tokens, hlex⟩
  rcases exists_mapM_eq_ok (fun part hpart => (h part hpart).2) with ⟨ds, hds⟩
  rcases (parse_agree_parts hne htrim hlex).exists_ok hds with ⟨d, hd, _⟩
  exact ⟨d, hd⟩

theorem kindInLine_of_parse {e : Diagnostic} (htrim : Text.trimmed part = part)
    (h : parse t part = .error e) :
    e.kindInLine = if part = "" then .malformed else e.kind := by
  have hempty : e = .emptyDefinition ↔ part = "" := by
    rw [eq_emptyDefinition_iff h, ← trimmed_eq_empty_iff, htrim]
  by_cases hpart : part = ""
  · rw [if_pos hpart, hempty.2 hpart]
    rfl
  · rw [if_neg hpart]
    cases e with
    | emptyDefinition => exact absurd (hempty.1 rfl) hpart
    | malformed | unknownName | unknownFunction | arityMismatch => rfl

/-- **A definition is read key by key, and all or nothing.** A line is read just when all its parts
between the commas are, and each part then is one of its keys, in order. If the line is cut into
tokens, the first part that fails decides the kind of the failure, where a part without any key is
malformed. -/
theorem parse_key_by_key (hne : line ≠ "") (htrim : Text.trimmed line = line) :
    ((∃ d, parse t line = .ok d) ↔
      ∀ part ∈ Text.split ',' line,
        part ≠ "" ∧ Text.trimmed part = part ∧ ∃ d, parse t part = .ok d) ∧
    (∀ d, parse t line = .ok d →
      (Text.split ',' line).map (parse t) = d.keys.map fun key => .ok (.snoc [] key)) ∧
    (∀ tokens, tokenize line = .ok tokens → ∀ before part after e,
      Text.split ',' line = before ++ part :: after → (∀ p ∈ before, ∃ d, parse t p = .ok d) →
      parse t part = .error e →
      ∃ e', parse t line = .error e' ∧ e'.kind = if part = "" then .malformed else e.kind) := by
  refine ⟨⟨?_, ?_⟩, ?_, ?_⟩
  · rintro ⟨d, hd⟩ part hpart
    rcases bind_eq_ok.1 hd with ⟨tokens, hlex, _⟩
    have hread : parse t part ∈ d.keys.map fun key => .ok (.snoc [] key) := by
      rw [← split_of_parse hne htrim hd]
      exact List.mem_map.2 ⟨part, hpart, rfl⟩
    rcases List.mem_map.1 hread with ⟨key, _, hkey⟩
    refine ⟨?_, trimmed_of_mem_split htrim hlex hpart, _, hkey.symm⟩
    rintro rfl
    rw [parse_blank rfl] at hkey
    cases hkey
  · intro h
    exact parse_of_parts hne htrim (fun part hpart => (h part hpart).2)
  · intro d hd
    exact split_of_parse hne htrim hd
  · intro tokens htokens before part after e hsplit hbefore hpart
    rcases bind_eq_ok.1 htokens with ⟨body, hlex, _⟩
    have hfail : (Text.split ',' line).mapM (parse t) = .error e := by
      rw [hsplit]
      exact mapM_eq_error hbefore hpart
    rcases (parse_agree_parts hne htrim hlex).exists_error hfail with ⟨e', he', hkind⟩
    have hmem : part ∈ Text.split ',' line := by simp [hsplit]
    refine ⟨e', he', ?_⟩
    rw [hkind, kindInLine_of_parse (trimmed_of_mem_split htrim hlex hmem) hpart]

/-- A line of two keys, and a line whose second part fails before its third, which is empty. -/
theorem parse_key_by_key_examples :
    (∃ d, parse .builtin "ip6ttl,or:ipsource:[asn:x]" = .ok d) ∧
      ∃ e, parse .builtin "ip6ttl,or:[asn:x:y]:ip6ttl,,asn:x" = .error e ∧
        e.kind = .arityMismatch := by
  have hname : parse .builtin "ip6ttl" = .ok (.snoc [] (.name ⟨"ip6ttl", "time to live"⟩)) := by
    cbv
  have hcall : parse .builtin "or:ipsource:[asn:x]" =
      .ok (.snoc [] (.computed ⟨⟨.plain, "or"⟩, [.key ⟨"ipsource", "IPv4 source address"⟩,
        .nested ⟨.plain, "asn"⟩ [.literal "x"]]⟩)) := by
    cbv
  have harity : parse .builtin "or:[asn:x:y]:ip6ttl" =
      .error (.arityMismatch "asn" (.exact 1) 2 4) := by
    cbv
  constructor
  · refine (parse_key_by_key (by decide) (by decide)).1.2 ?_
    have hsplit : Text.split ',' "ip6ttl,or:ipsource:[asn:x]" =
        ["ip6ttl", "or:ipsource:[asn:x]"] := by
      decide
    rw [hsplit]
    intro part hpart
    rcases List.mem_pair.1 hpart with rfl | rfl
    · exact ⟨by decide, by decide, _, hname⟩
    · exact ⟨by decide, by decide, _, hcall⟩
  · have hlex : ∃ tokens, tokenize "ip6ttl,or:[asn:x:y]:ip6ttl,,asn:x" = .ok tokens :=
      ⟨_, by cbv⟩
    rcases hlex with ⟨tokens, hlex⟩
    refine (parse_key_by_key (by decide) (by decide)).2.2 tokens hlex ["ip6ttl"]
      "or:[asn:x:y]:ip6ttl" ["", "asn:x"] _ (by decide) ?_ harity
    intro part hpart
    rw [List.mem_singleton.1 hpart]
    exact ⟨_, hname⟩

end

end Direct

end TrafficKey
