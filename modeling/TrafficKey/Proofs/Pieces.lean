import TrafficKey.Proofs.Drawing
import TrafficKey.Proofs.Listings

/-!
# The pieces of a text and the tokens of a line

Mutations cut a text into pieces: two neighbours stay together if both are identifier characters, and
all other characters stand alone. So a piece goes on exactly as long as a token does, and on a line that
can be cut into tokens the two cuts are the same. Unlike tokens, pieces exist for every text.

A cut between neighbours is `List.splitBy`, and its lemmas are used here.
-/

namespace TrafficKey.Fuzz

/-- Two neighbours belong to the same piece. -/
def staysTogether (c d : Char) : Bool :=
  isNameChar c && isNameChar d

/-- `run`, with `before` and `after` around it, is an identifier that cannot be made longer on either
side. -/
structure MaximalRun (before run after : List Char) : Prop where
  ne_nil : run ≠ []
  names : ∀ c ∈ run, isNameChar c = true
  starts : ∀ c ∈ before.getLast?, isNameChar c = false
  stops : ∀ c ∈ after.head?, isNameChar c = false

/-- The pieces of a text after one more character: it goes on the last piece if it stays together with
the last character of that piece. -/
def addChar (ps : List (List Char)) (c : Char) : List (List Char) :=
  match ps.getLast? with
  | none => [[c]]
  | some last =>
    if last.getLast?.any (staysTogether · c) then ps.dropLast ++ [last ++ [c]] else ps ++ [[c]]

variable {cs piece : List Char} {before after : List (List Char)}

/-! ## Pieces are cuts between neighbours -/

theorem IsPiece.ne_nil (h : IsPiece piece) : piece ≠ [] := by
  rcases h with ⟨hne, -⟩ | ⟨c, rfl, -⟩
  · exact hne
  · exact List.cons_ne_nil c []

theorem IsPiece.isChain (h : IsPiece piece) :
    piece.IsChain fun c d => staysTogether c d = true := by
  rcases h with ⟨-, hname⟩ | ⟨c, rfl, -⟩
  · refine (List.pairwise_of_forall_mem_list ?_).isChain
    intro c hc d hd
    rw [staysTogether, hname c hc, hname d hd, Bool.and_self]
  · exact List.isChain_singleton c

/-- Where one piece ends and the next one starts, two neighbours do not stay together. -/
theorem isChain_pieces (cs : List Char) :
    (pieces cs).IsChain fun a b =>
      ∃ ha hb, staysTogether (a.getLast ha) (b.head hb) = false := by
  induction cs with
  | nil => exact List.isChain_nil
  | cons c cs ih =>
    unfold pieces
    split
    next d run rest heq =>
      rw [heq] at ih
      split
      next =>
        -- the first piece is longer in front and still ends as before
        rw [List.isChain_cons] at ih ⊢
        refine ⟨?_, ih.2⟩
        intro b hb
        obtain ⟨hrun, hne, hapart⟩ := ih.1 b hb
        refine ⟨List.cons_ne_nil _ _, hne, ?_⟩
        rw [List.getLast_cons hrun]
        exact hapart
      next hboth =>
        refine List.isChain_cons_cons.2 ⟨⟨List.cons_ne_nil _ _, List.cons_ne_nil _ _, ?_⟩, ih⟩
        exact Bool.eq_false_iff.2 hboth
    next hrest =>
      -- no piece is empty, so here there is none
      cases hpieces : pieces cs with
      | nil => exact List.isChain_singleton _
      | cons first rest =>
        have hmem : first ∈ pieces cs := by simp [hpieces]
        obtain ⟨d, run, rfl⟩ := List.exists_cons_of_ne_nil (isPiece_of_mem first hmem).ne_nil
        exact absurd hpieces (hrest d run rest)

theorem pieces_eq_splitBy (cs : List Char) : pieces cs = cs.splitBy staysTogether := by
  symm
  rw [List.splitBy_eq_iff]
  refine ⟨(flatten_pieces cs).symm, ?_, ?_, isChain_pieces cs⟩
  · intro hnil
    exact (isPiece_of_mem [] hnil).ne_nil rfl
  · intro piece hpiece
    exact (isPiece_of_mem piece hpiece).isChain

theorem pieces_of_isPiece (h : IsPiece piece) : pieces piece = [piece] := by
  rw [pieces_eq_splitBy, List.splitBy_of_isChain h.ne_nil h.isChain]

/-- Texts that do not stay together where they meet are cut on their own. -/
theorem pieces_append {left right : List Char}
    (h : ∀ c ∈ left.getLast?, ∀ d ∈ right.head?, staysTogether c d = false) :
    pieces (left ++ right) = pieces left ++ pieces right := by
  rw [pieces_eq_splitBy, pieces_eq_splitBy, pieces_eq_splitBy, List.splitBy_append h]

/-- Wherever the pieces of a text are parted, the text is parted between two pieces. -/
theorem apart_of_pieces (h : pieces cs = before ++ after) :
    ∀ c ∈ before.flatten.getLast?, ∀ d ∈ after.flatten.head?, staysTogether c d = false := by
  intro c hc d hd
  have hne : ∀ piece ∈ before ++ after, piece ≠ [] := by
    intro piece hpiece
    rw [← h] at hpiece
    exact (isPiece_of_mem piece hpiece).ne_nil
  have hchain := isChain_pieces cs
  rw [h, List.isChain_append] at hchain
  rcases List.eq_nil_or_concat' before with rfl | ⟨init, last, rfl⟩
  · cases hc
  · cases after with
    | nil => cases hd
    | cons first rest =>
      obtain ⟨hlast, hfirst, hapart⟩ := hchain.2.2 last (by simp) first (by simp)
      have hcl : c = last.getLast hlast := by
        rw [List.flatten_concat, List.getLast?_append_of_ne_nil _ hlast,
          List.getLast?_eq_some_getLast hlast] at hc
        exact (Option.mem_some_iff.1 hc).symm
      have hdf : d = first.head hfirst := by
        rw [List.flatten_cons, List.head?_append_of_ne_nil _ hfirst,
          List.head?_eq_some_head hfirst] at hd
        exact (Option.mem_some_iff.1 hd).symm
      rw [hcl, hdf]
      exact hapart

/-- A piece that is an identifier is a longest one. -/
theorem maximalRun_of_pieces (h : pieces cs = before ++ piece :: after) (hne : piece ≠ [])
    (hname : ∀ c ∈ piece, isNameChar c = true) :
    MaximalRun before.flatten piece after.flatten := by
  refine ⟨hne, hname, ?_, ?_⟩
  · intro c hc
    have hhead : piece.head hne ∈ (piece :: after).flatten.head? := by
      rw [List.flatten_cons, List.head?_append_of_ne_nil _ hne, List.head?_eq_some_head hne]
      rfl
    have hapart := apart_of_pieces h c hc _ hhead
    rwa [staysTogether, hname _ (List.head_mem hne), Bool.and_true] at hapart
  · intro d hd
    have hlast : piece.getLast hne ∈ (before ++ [piece]).flatten.getLast? := by
      rw [List.flatten_concat, List.getLast?_append_of_ne_nil _ hne,
        List.getLast?_eq_some_getLast hne]
      rfl
    rw [List.append_cons] at h
    have hapart := apart_of_pieces h _ hlast d hd
    rwa [staysTogether, hname _ (List.getLast_mem hne), Bool.true_and] at hapart

/-- A piece is a character of its own or a longest identifier. -/
theorem single_or_maximalRun (h : pieces cs = before ++ piece :: after) :
    (∃ c, piece = [c] ∧ isNameChar c = false) ∨ MaximalRun before.flatten piece after.flatten := by
  have hpiece : IsPiece piece := isPiece_of_mem piece (by rw [h]; simp)
  rcases hpiece with ⟨hne, hname⟩ | hother
  · exact Or.inr (maximalRun_of_pieces h hne hname)
  · exact Or.inl hother

/-! ## Pieces from left to right -/

/-- A piece with an identifier character stays a piece with one more. -/
theorem IsPiece.concat {e c : Char} (h : IsPiece piece) (he : e ∈ piece)
    (htogether : staysTogether e c = true) : IsPiece (piece ++ [c]) := by
  rw [staysTogether, Bool.and_eq_true] at htogether
  rcases h with ⟨-, hname⟩ | ⟨d, rfl, hother⟩
  · refine Or.inl ⟨by simp, ?_⟩
    rw [List.forall_mem_append, List.forall_mem_singleton]
    exact ⟨hname, htogether.2⟩
  · rw [← List.mem_singleton.1 he, htogether.1] at hother
    cases hother

theorem pieces_concat (cs : List Char) (c : Char) : pieces (cs ++ [c]) = addChar (pieces cs) c := by
  rcases List.eq_nil_or_concat' (pieces cs) with hnil | ⟨init, last, hpieces⟩
  · have hcs := flatten_pieces cs
    rw [hnil] at hcs
    rw [← hcs]
    rfl
  · have hlast : IsPiece last := isPiece_of_mem last (by rw [hpieces]; simp)
    have hcs : cs = init.flatten ++ last := by
      rw [← flatten_pieces cs, hpieces, List.flatten_concat]
    have hapart := apart_of_pieces hpieces
    rw [List.flatten_singleton] at hapart
    have hinit : pieces init.flatten = init := by
      have hparts := pieces_append hapart
      rw [← hcs, hpieces, pieces_of_isPiece hlast] at hparts
      exact (List.append_cancel_right hparts).symm
    unfold addChar
    simp only [hpieces, List.getLast?_concat, List.dropLast_concat]
    split
    next htogether =>
      -- the last piece gets longer behind, and what stands before it stays apart from it
      obtain ⟨e, he, hec⟩ := (Option.any_eq_true _ _).1 htogether
      have hlonger := hlast.concat (List.mem_of_getLast? he) hec
      rw [← List.head?_append_of_ne_nil last hlast.ne_nil] at hapart
      rw [hcs, List.append_assoc, pieces_append hapart, hinit, pieces_of_isPiece hlonger]
    next htogether =>
      have hends : ∀ e ∈ cs.getLast?, ∀ d ∈ [c].head?, staysTogether e d = false := by
        intro e he d hd
        rw [hcs, List.getLast?_append_of_ne_nil _ hlast.ne_nil] at he
        cases hd
        exact (Option.any_eq_false _ _).1 (Bool.eq_false_iff.2 htogether) e he
      rw [pieces_append hends, hpieces, pieces_of_isPiece (isPiece_singleton c)]

theorem pieces_eq_foldl (cs : List Char) : pieces cs = cs.foldl addChar [] := by
  induction cs using List.reverseRecOn with
  | nil => rfl
  | append_singleton cs c ih => rw [pieces_concat, ih, List.foldl_concat]

/-! ## Pieces and tokens -/

theorem isPiece_of_matches {kind : TokenKind} {text : List Char} (h : kind.Matches text) :
    IsPiece text := by
  by_cases hk : kind = .identifier
  · subst hk
    exact Or.inl h
  · obtain ⟨c, rfl, -⟩ := ofChar?_of_matches h hk
    exact isPiece_singleton c

/-- A terminal that cannot go on does not stay together with what follows. -/
theorem apart_of_longest {kind : TokenKind} {text rest : List Char} (hm : kind.Matches text)
    (hmax : ∀ d ∈ rest.head?, ¬ kind.Matches (text ++ [d])) :
    ∀ c ∈ text.getLast?, ∀ d ∈ rest.head?, staysTogether c d = false := by
  intro c hc d hd
  by_contra htogether
  rw [staysTogether, Bool.not_eq_false, Bool.and_eq_true] at htogether
  have hmem : c ∈ text := List.mem_of_getLast? hc
  by_cases hk : kind = .identifier
  · subst hk
    refine hmax d hd ⟨by simp, ?_⟩
    intro e he
    rcases List.mem_append.1 he with he | he
    · exact hm.2 e he
    · rw [List.mem_singleton.1 he]
      exact htogether.2
  · -- a punctuation mark stays together with nothing
    obtain ⟨mark, rfl, hmark⟩ := ofChar?_of_matches hm hk
    rw [← List.mem_singleton.1 hmem, ofChar?_of_isNameChar htogether.1] at hmark
    cases hmark

/-- The pieces of a line that is cut into tokens are the values of the tokens. -/
theorem pieces_of_tiles {offset : Nat} {tokens : List Token} (h : Tiles offset cs tokens) :
    pieces cs = tokens.map (·.value.toList) := by
  induction h with
  | nil offset => rfl
  | cons hm hmax _ ih =>
    rw [pieces_append (apart_of_longest hm hmax), pieces_of_isPiece (isPiece_of_matches hm), ih,
      List.map_cons, String.toList_ofList, List.singleton_append]

/-! ## Texts -/

theorem map_toList_piecesOf (s : String) : (piecesOf s).map String.toList = pieces s.toList := by
  unfold piecesOf
  rw [List.map_map]
  exact (List.map_congr_left fun piece _ => String.toList_ofList).trans (List.map_id _)

theorem piecesOf_trimmed {text : String} {body : List Token}
    (h : Tiles (Text.indent text.toList) (Text.trim text.toList) body) :
    piecesOf (Text.trimmed text) = body.map Token.value := by
  unfold piecesOf Text.trimmed
  rw [String.toList_ofList, pieces_of_tiles h, List.map_map]
  exact List.map_congr_left fun token _ => String.ofList_toList

/-- **Pieces agree with tokens.** The pieces of a text, put together, are the text. None of them is
empty, and each is one character that belongs to no identifier or an identifier that cannot be made longer
where it stands. They are what reading the text from left to right gives, where a character goes on the
last piece if it stays together with the last character of that piece. And if the text can be cut into
tokens, the pieces of the trimmed text are the values of the tokens without the end of input. -/
theorem pieces_agree_with_tokens (s : String) :
    String.join (piecesOf s) = s ∧
      (∀ before piece after, piecesOf s = before ++ piece :: after →
        piece ≠ "" ∧ ((∃ c, piece = String.singleton c ∧ isNameChar c = false) ∨
          MaximalRun (String.join before).toList piece.toList (String.join after).toList)) ∧
      (piecesOf s).map String.toList = s.toList.foldl addChar [] ∧
      ∀ tokens, tokenize s = .ok tokens →
        ∃ body stop, tokens = body ++ [stop] ∧ stop.kind = .eof ∧
          (∀ token ∈ body, token.kind ≠ .eof) ∧
          piecesOf (Text.trimmed s) = body.map Token.value := by
  refine ⟨?_, ?_, ?_, ?_⟩
  · rw [← String.toList_inj, String.toList_join, List.flatMap_def, map_toList_piecesOf,
      flatten_pieces]
  · intro before piece after hcut
    have hpieces := map_toList_piecesOf s
    rw [hcut, List.map_append, List.map_cons] at hpieces
    have hpiece : IsPiece piece.toList := isPiece_of_mem _ (by rw [← hpieces]; simp)
    refine ⟨by simpa using hpiece.ne_nil, ?_⟩
    rcases single_or_maximalRun hpieces.symm with ⟨c, hc, hother⟩ | hrun
    · exact Or.inl ⟨c, by rw [← String.toList_inj, hc, String.toList_singleton], hother⟩
    · rw [String.toList_join, String.toList_join]
      exact Or.inr hrun
  · rw [map_toList_piecesOf, pieces_eq_foldl]
  · intro tokens htokens
    obtain ⟨body, hbody, rfl⟩ := tokenize_eq_ok_iff.1 htokens
    refine ⟨body, Token.stop (lineEnd s), rfl, rfl, ?_, piecesOf_trimmed hbody⟩
    intro token htoken hk
    have hvalue := hbody.matches_value token htoken
    rw [hk] at hvalue
    exact hvalue

/-- A tabulator is a piece, but no token. -/
theorem pieces_agree_with_tokens_indented :
    ∃ body stop, tokenize "\tab:c" = .ok (body ++ [stop]) ∧
      piecesOf "\tab:c" = ["\t"] ++ "ab" :: [":", "c"] ∧
      MaximalRun ['\t'] ['a', 'b'] [':', 'c'] ∧
      piecesOf (Text.trimmed "\tab:c") = body.map Token.value ∧
      body.map Token.value = ["ab", ":", "c"] := by
  have hline : tokenize "\tab:c" =
      .ok ([⟨.identifier, "ab", 1⟩, ⟨.colon, ":", 3⟩, ⟨.identifier, "c", 4⟩] ++ [Token.stop 5]) := by
    cbv
  have hcut : piecesOf "\tab:c" = ["\t"] ++ "ab" :: [":", "c"] := by decide
  obtain ⟨-, hpieces, -, htokens⟩ := pieces_agree_with_tokens "\tab:c"
  obtain ⟨body, stop, hbody, -, -, hvalues⟩ := htokens _ hline
  obtain ⟨-, ⟨c, hc, -⟩ | hrun⟩ := hpieces _ _ _ hcut
  · have hlength := congrArg String.length hc
    rw [String.length_singleton] at hlength
    exact absurd hlength (by decide)
  · obtain ⟨rfl, hstop⟩ := List.append_inj' hbody rfl
    exact ⟨_, _, hline, hcut, hrun, hvalues, rfl⟩

end TrafficKey.Fuzz
