import TrafficKey.Proofs.Places

/-!
# The tokens of a line tile it

A list of tokens can be told to be the tokens of a line by looking at the list alone: each value is one
punctuation mark or a run of identifier characters, no two identifiers follow each other, each token
stands where the values before it end, and the end of input comes once and last. Cutting a line gives
such a listing, whose values are the trimmed line; and the values of a listing, put together, are cut
into that listing again.
-/

namespace TrafficKey

/-- The characters that tokens consist of. -/
def IsTokenChar (c : Char) : Prop :=
  isNameChar c = true ∨ c ∈ [':', ',', '[', ']']

instance : DecidablePred IsTokenChar := fun c =>
  inferInstanceAs (Decidable (isNameChar c = true ∨ c ∈ [':', ',', '[', ']']))

/-- No two identifiers follow each other. -/
def Apart (tokens : List Token) : Prop :=
  tokens.IsChain fun a b => a.kind = .identifier → b.kind ≠ .identifier

/-- A token stands where the values before it end; the first one stands at `start`. -/
def Consecutive (start : Nat) (tokens : List Token) : Prop :=
  ∀ before token after, tokens = before ++ token :: after →
    token.offset = ((start + (spelling before).length : Nat) : Int)

/-- The tokens are those of a line that starts at `start`, with the end of input. -/
structure Listing (start : Nat) (tokens : List Token) : Prop where
  /-- the end of input, which has no text, comes once and last -/
  ended : ∃ body stop, tokens = body ++ [stop] ∧ stop.kind = .eof ∧ stop.value = "" ∧
    ∀ token ∈ body, token.kind ≠ .eof
  /-- every other value is one punctuation mark or a run of identifier characters -/
  values : ∀ token ∈ tokens, token.kind ≠ .eof → token.kind.Matches token.value.toList
  consecutive : Consecutive start tokens
  apart : Apart tokens

theorem startsToken_iff_isTokenChar (c : Char) : StartsToken c ↔ IsTokenChar c := by
  have hmark : (TokenKind.ofChar? c).isSome ↔ c ∈ [':', ',', '[', ']'] := by
    unfold TokenKind.ofChar?
    split_ifs with hcolon hcomma hopen hclose
    all_goals simp_all
  rw [startsToken_iff, hmark, IsTokenChar, or_comm]

/-! ## Tilings -/

section

variable {start : Nat} {cs : List Char} {token : Token} {tokens : List Token}

theorem consecutive_cons :
    Consecutive start (token :: tokens) ↔
      token.offset = start ∧ Consecutive (start + token.value.toList.length) tokens := by
  constructor
  · intro h
    refine ⟨by simpa using h [] token tokens rfl, ?_⟩
    intro before next after htokens
    have hnext := h (token :: before) next after (by rw [htokens]; rfl)
    rw [hnext, spelling_cons, List.length_append, Nat.add_assoc]
  · rintro ⟨hfirst, htail⟩ before next after htokens
    cases before with
    | nil =>
      cases htokens
      simpa using hfirst
    | cons first before =>
      cases htokens
      rw [htail before next after rfl, spelling_cons, List.length_append, Nat.add_assoc]

/-- The first character of an identifier could go on an identifier before it. -/
theorem Tiles.apart (h : Tiles start cs tokens) : Apart tokens := by
  unfold Apart
  rw [List.isChain_iff_forall_rel_of_append_cons_cons]
  intro a b before after htokens ha hb
  rw [htokens] at h
  have hvalue := h.matches_value b (by simp)
  rw [hb] at hvalue
  obtain ⟨c, more, hc⟩ := List.exists_cons_of_ne_nil hvalue.1
  have hends : isNameChar c = false := h.endsWord ha c (by simp [hc])
  rw [hvalue.2 c (by simp [hc])] at hends
  cases hends

/-- A terminal cannot go on with what follows it, if identifiers stand apart. -/
theorem not_matches_append_of_apart {c : Char} (hm : token.kind.Matches token.value.toList)
    (hvalues : ∀ next ∈ tokens, next.kind.Matches next.value.toList)
    (hapart : Apart (token :: tokens)) (hc : c ∈ (spelling tokens).head?) :
    ¬ token.kind.Matches (token.value.toList ++ [c]) := by
  intro hlonger
  by_cases hk : token.kind = .identifier
  · cases tokens with
    | nil => cases hc
    | cons next tokens =>
      -- the next token is a punctuation mark, which belongs to no identifier
      have hnext : next.kind ≠ .identifier := (List.isChain_cons_cons.1 hapart).1 hk
      obtain ⟨mark, hmark, hof⟩ := ofChar?_of_matches (hvalues next (by simp)) hnext
      have hcm : c = mark := by simpa [hmark, eq_comm] using hc
      rw [hk] at hlonger
      have hname : isNameChar c = true := hlonger.2 c (by simp)
      rw [← hcm, ofChar?_of_isNameChar hname] at hof
      cases hof
  · obtain ⟨mark, hmark, hof⟩ := ofChar?_of_matches hm hk
    rw [hmark] at hlonger
    exact not_matches_append_singleton hof hlonger

/-- A tiling is told by its tokens alone. -/
theorem tiles_iff :
    Tiles start cs tokens ↔
      spelling tokens = cs ∧ (∀ token ∈ tokens, token.kind.Matches token.value.toList) ∧
        Consecutive start tokens ∧ Apart tokens := by
  constructor
  · intro h
    refine ⟨h.spelling_eq, h.matches_value, ?_, h.apart⟩
    intro before token after htokens
    rw [htokens] at h
    exact h.offset_eq
  · rintro ⟨rfl, hvalues, hconsecutive, hapart⟩
    -- that a terminal is the longest one is the part that the list does not say by itself
    induction tokens generalizing start with
    | nil => exact .nil start
    | cons token tokens ih =>
      rw [List.forall_mem_cons] at hvalues
      obtain ⟨hoffset, hrest⟩ := consecutive_cons.1 hconsecutive
      have htail := ih hvalues.2 hrest hapart.tail
      have hmax : ∀ c ∈ (spelling tokens).head?, ¬ token.kind.Matches (token.value.toList ++ [c]) :=
        fun c hc => not_matches_append_of_apart hvalues.1 hvalues.2 hapart hc
      have hcons := Tiles.cons hvalues.1 hmax htail
      rwa [String.ofList_toList, ← hoffset] at hcons

/-! ## Listings -/

theorem Tiles.listing (h : Tiles start cs tokens) :
    Listing start (tokens ++ [Token.stop ((start + cs.length : Nat) : Int)]) := by
  obtain ⟨hcs, hvalues, hconsecutive, hapart⟩ := tiles_iff.1 h
  have hkinds : ∀ token ∈ tokens, token.kind ≠ .eof := by
    intro token htoken hk
    have hvalue := hvalues token htoken
    rw [hk] at hvalue
    exact hvalue
  refine ⟨⟨tokens, _, rfl, rfl, rfl, hkinds⟩, ?_, ?_, ?_⟩
  · intro token htoken hk
    rcases List.mem_append.1 htoken with htoken | hstop
    · exact hvalues token htoken
    · rw [List.mem_singleton.1 hstop] at hk
      exact absurd rfl hk
  · intro before token after htokens
    -- the token is the end of input, or one of the tiling
    rcases List.eq_nil_or_concat' after with rfl | ⟨after, stop, rfl⟩
    · obtain ⟨rfl, hstop⟩ := List.append_inj' htokens rfl
      cases hstop
      rw [hcs]
      rfl
    · rw [← List.cons_append, ← List.append_assoc] at htokens
      exact hconsecutive before token after (List.append_inj' htokens rfl).1
  · refine List.isChain_append.2 ⟨hapart, List.isChain_singleton _, ?_⟩
    intro a _ stop hstop _
    cases hstop
    simp [Token.stop]

theorem Listing.exists_tiles (h : Listing start tokens) :
    ∃ body, tokens = body ++ [Token.stop ((start + (spelling body).length : Nat) : Int)] ∧
      Tiles start (spelling body) body := by
  obtain ⟨body, stop, rfl, hkind, hvalue, hkinds⟩ := h.ended
  have hoffset := h.consecutive body stop [] rfl
  have hstop : stop = Token.stop ((start + (spelling body).length : Nat) : Int) := by
    rw [← hoffset, Token.stop, ← hkind, ← hvalue]
  refine ⟨body, by rw [← hstop], tiles_iff.2 ⟨rfl, ?_, ?_, h.apart.left_of_append⟩⟩
  · intro token htoken
    exact h.values token (List.mem_append_left _ htoken) (hkinds token htoken)
  · intro before token after hbody
    exact h.consecutive before token (after ++ [stop]) (by rw [hbody]; simp)

end

/-! ## Lines -/

/-- Where the text ends: after its last character that is not blank, or at its end if it is blank. -/
def textEnd (text : String) : Nat :=
  if Text.trim text.toList = [] then text.toList.length else (Text.trimRight text.toList).length

/-- A blank text is all indentation. -/
theorem indent_of_blank {cs : List Char} (h : Text.trim cs = []) : Text.indent cs = cs.length := by
  obtain ⟨left, right, hcs, hlength, hleft, hright⟩ := Text.exists_blanks cs
  have hall : ∀ c ∈ cs, Text.isBlank c = true := by
    intro c hc
    rw [hcs, h, List.append_nil] at hc
    exact (List.mem_append.1 hc).elim (hleft c) (hright c)
  unfold Text.indent
  rw [List.takeWhile_eq_self_iff.2 hall]

theorem lineEnd_eq_textEnd (text : String) : lineEnd text = textEnd text := by
  unfold lineEnd textEnd
  split
  · rename_i hblank
    -- on a blank line both trims take the whole text, and the end is where the indentation ends
    rw [hblank, indent_of_blank hblank]
    rfl
  · rename_i hblank
    exact (Text.length_trimRight hblank).symm

theorem tokenize_eq_ok_iff {text : String} {tokens : List Token} :
    tokenize text = .ok tokens ↔
      ∃ body, Tiles (Text.indent text.toList) (Text.trim text.toList) body ∧
        tokens = body ++ [Token.stop (lineEnd text)] := by
  unfold tokenize
  rw [bind_eq_ok]
  constructor
  · rintro ⟨body, hbody, htokens⟩
    cases htokens
    exact ⟨body, tiles_of_lineTokens hbody, rfl⟩
  · rintro ⟨body, hbody, rfl⟩
    refine ⟨body, ?_, rfl⟩
    unfold lineTokens
    rw [scan_eq_ok_iff.2 hbody]
    rfl

theorem exists_tokenize_iff (text : String) :
    (∃ tokens, tokenize text = .ok tokens) ↔ ∀ c ∈ Text.trim text.toList, IsTokenChar c := by
  constructor
  · rintro ⟨tokens, htokens⟩ c hc
    obtain ⟨body, hbody, -⟩ := tokenize_eq_ok_iff.1 htokens
    exact (startsToken_iff_isTokenChar c).1 (hbody.startsToken c hc)
  · intro h
    obtain ⟨body, hbody⟩ := exists_tiles (Text.indent text.toList)
      fun c hc => (startsToken_iff_isTokenChar c).2 (h c hc)
    exact ⟨_, tokenize_eq_ok_iff.2 ⟨body, hbody, rfl⟩⟩

/-- The first character that belongs to no token is reported. -/
theorem tokenize_eq_error {text : String} {before after : List Char} {c : Char}
    (htext : Text.trim text.toList = before ++ c :: after)
    (hbefore : ∀ d ∈ before, IsTokenChar d) (hc : ¬ IsTokenChar c) :
    tokenize text =
      .error (Unmatched.diagnostic ⟨Text.indent text.toList + before.length, c⟩) := by
  have hfirst : FirstUnmatched (Text.indent text.toList) (Text.trim text.toList)
      ⟨Text.indent text.toList + before.length, c⟩ := by
    refine ⟨before, after, htext, rfl, ?_, ?_⟩
    · exact fun d hd => (startsToken_iff_isTokenChar d).2 (hbefore d hd)
    · exact fun hstarts => hc ((startsToken_iff_isTokenChar c).1 hstarts)
  cases hscan : scan (Text.indent text.toList) (Text.trim text.toList) with
  | ok tokens =>
    have hstarts := (scan_eq_ok_iff.1 hscan).startsToken c (by simp [htext])
    exact absurd ((startsToken_iff_isTokenChar c).1 hstarts) hc
  | error u =>
    unfold tokenize lineTokens
    rw [hscan, (scan_eq_error hscan).unique hfirst]
    rfl

/-- What a line is cut into is a listing of the trimmed line. -/
theorem listing_of_tokenize {text : String} {tokens : List Token} (h : tokenize text = .ok tokens) :
    spelling tokens = Text.trim text.toList ∧ Listing (Text.indent text.toList) tokens ∧
      ∃ stop, tokens.getLast? = some stop ∧ stop.offset = textEnd text := by
  obtain ⟨body, hbody, rfl⟩ := tokenize_eq_ok_iff.1 h
  refine ⟨?_, hbody.listing, _, List.getLast?_concat, ?_⟩
  · rw [spelling_append, hbody.spelling_eq]
    exact List.append_nil _
  · rw [← lineEnd_eq_textEnd]
    rfl

/-- The values of a listing are cut into the listing. -/
theorem tokenize_spelling {tokens : List Token} (h : Listing 0 tokens) :
    tokenize (String.ofList (spelling tokens)) = .ok tokens := by
  obtain ⟨body, hbody, htiles⟩ := h.exists_tiles
  have hspelling : spelling tokens = spelling body := by
    rw [hbody, spelling_append]
    exact List.append_nil _
  rw [← String.toList_ofList (l := spelling body)] at htiles
  obtain ⟨htokens, hend⟩ := htiles.lineTokens_eq
  unfold tokenize
  rw [hspelling, htokens, hend, String.toList_ofList, hbody, Nat.zero_add]
  rfl

/-- **Tokens tile the line.** A text is cut into tokens just when every character of the trimmed text
belongs to one; otherwise the first character that does not is reported at its offset in the text. The
values of the tokens are the trimmed text, the tokens are a listing that starts behind the leading
blanks, and the end of input stands where the text ends. And the values of any listing that starts at 0
are cut into that listing. -/
theorem tokenize_tiles_line (text : String) :
    ((∃ tokens, tokenize text = .ok tokens) ↔ ∀ c ∈ Text.trim text.toList, IsTokenChar c) ∧
    (∀ before c after, Text.trim text.toList = before ++ c :: after →
      (∀ d ∈ before, IsTokenChar d) → ¬ IsTokenChar c →
      ∃ n : Nat, n = Text.indent text.toList + before.length ∧ StandsAt text.toList n [c] ∧
        tokenize text = .error (.malformed n .token (some (String.singleton c)))) ∧
    (∀ tokens, tokenize text = .ok tokens →
      spelling tokens = Text.trim text.toList ∧ Listing (Text.indent text.toList) tokens ∧
        ∃ stop, tokens.getLast? = some stop ∧ stop.offset = textEnd text) ∧
    ∀ tokens, Listing 0 tokens → tokenize (String.ofList (spelling tokens)) = .ok tokens := by
  refine ⟨exists_tokenize_iff text, ?_, fun _ h => listing_of_tokenize h, fun _ h =>
    tokenize_spelling h⟩
  intro before c after htext hbefore hc
  refine ⟨_, rfl, ?_, tokenize_eq_error htext hbefore hc⟩
  obtain ⟨left, right, hline, hlength, -, -⟩ := Text.exists_blanks text.toList
  refine ⟨left ++ before, after ++ right, ?_, by rw [List.length_append, hlength]⟩
  rw [htext] at hline
  simpa using hline

theorem tokenize_tiles_line_indented :
    tokenize " a:b !" = .error (.malformed 4 .token (some " ")) ∧
      ∃ tokens, tokenize "ab:c" = .ok tokens ∧ Listing 0 tokens ∧
        tokenize (String.ofList (spelling tokens)) = .ok tokens := by
  have hgood : ∀ c ∈ ['a', ':', 'b'], IsTokenChar c := by
    rw [List.forall_mem_cons, List.forall_mem_cons, List.forall_mem_singleton]
    decide
  have hok : tokenize "ab:c" =
      .ok [⟨.identifier, "ab", 0⟩, ⟨.colon, ":", 2⟩, ⟨.identifier, "c", 3⟩, Token.stop 4] := by
    cbv
  obtain ⟨n, rfl, -, herror⟩ :=
    (tokenize_tiles_line " a:b !").2.1 ['a', ':', 'b'] ' ' ['!'] (by decide) hgood (by decide)
  obtain ⟨-, -, hlisting, hback⟩ := tokenize_tiles_line "ab:c"
  have htokens := (hlisting _ hok).2.1
  exact ⟨herror, _, hok, htokens, hback _ htokens⟩

end TrafficKey
