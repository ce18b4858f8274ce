import TrafficKey.Proofs.Runs
import TrafficKey.Proofs.Scanning

/-!
# Where the tokens of a line stand

An offset counts characters of the untrimmed line. Here is what stands there: at the offset of a token
its own text, and an identifier is neither preceded nor followed by a character that could belong to
it.
-/

namespace TrafficKey

/-- The text stands at `offset` of the characters. -/
def StandsAt (cs : List Char) (offset : Nat) (text : List Char) : Prop :=
  ∃ before after, cs = before ++ text ++ after ∧ before.length = offset

/-- The word stands at `offset` of the characters and is a maximal run of identifier characters
there. -/
def WordAt (cs : List Char) (offset : Nat) (word : String) : Prop :=
  isName word = true ∧
    ∃ before after, cs = before ++ word.toList ++ after ∧ before.length = offset ∧
      (∀ c ∈ before.getLast?, isNameChar c = false) ∧ ∀ c ∈ after.head?, isNameChar c = false

/-! ## Tokens in their tiling -/

/-- What follows some tokens of a tiling is tiled by the other tokens. -/
theorem Tiles.drop {offset : Nat} {cs : List Char} {before rest : List Token}
    (h : Tiles offset cs (before ++ rest)) :
    Tiles (offset + (spelling before).length) (spelling rest) rest := by
  induction before generalizing offset cs with
  | nil =>
    have hcs : spelling rest = cs := h.spelling_eq
    rw [hcs]
    exact h
  | cons token before ih =>
    rcases h with _ | ⟨hm, hmax, htail⟩
    have hnext := ih htail
    simpa [Nat.add_assoc] using hnext

theorem Tiles.offset_eq {offset : Nat} {cs : List Char} {before after : List Token} {token : Token}
    (h : Tiles offset cs (before ++ token :: after)) :
    token.offset = ((offset + (spelling before).length : Nat) : Int) := by
  have hdrop := h.drop
  generalize hcs : spelling (token :: after) = text at hdrop
  cases hdrop
  rfl

/-- No character that could belong to an identifier follows it. -/
theorem Tiles.endsWord {offset : Nat} {cs : List Char} {before after : List Token} {token : Token}
    (h : Tiles offset cs (before ++ token :: after)) (hk : token.kind = .identifier) :
    ∀ c ∈ (spelling after).head?, isNameChar c = false := by
  have hdrop := h.drop
  generalize hcs : spelling (token :: after) = text at hdrop
  rcases hdrop with _ | ⟨hm, hmax, htail⟩
  intro c hc
  rw [htail.spelling_eq] at hc
  dsimp only at hk
  subst hk
  by_contra hname
  refine hmax c hc ⟨by simp, ?_⟩
  intro d hd
  rcases List.mem_append.1 hd with hd | hd
  · exact hm.2 d hd
  · rw [List.mem_singleton.1 hd]
    simpa using hname

/-- No character that could belong to an identifier stands before it. -/
theorem Tiles.startsWord {offset : Nat} {cs : List Char} {before after : List Token}
    {token : Token} (h : Tiles offset cs (before ++ token :: after))
    (hk : token.kind = .identifier) : ∀ c ∈ (spelling before).getLast?, isNameChar c = false := by
  have hvalue := h.matches_value token (by simp)
  rw [hk] at hvalue
  rcases List.eq_nil_or_concat' before with rfl | ⟨earlier, previous, rfl⟩
  · simp
  rw [List.append_assoc, List.singleton_append] at h
  have hprevious := h.matches_value previous (by simp)
  intro c hc
  have hmem : c ∈ previous.value.toList := by
    have hne : previous.value.toList ≠ [] := by
      intro hnil
      rw [hnil] at hprevious
      cases hkind : previous.kind <;> simp [hkind, TokenKind.Matches] at hprevious
    rw [spelling_append, spelling_cons, spelling_nil, List.append_nil,
      List.getLast?_append_of_ne_nil _ hne] at hc
    exact List.mem_of_mem_getLast? hc
  by_cases hkind : previous.kind = .identifier
  · -- the first character of the token would have been part of the identifier before it
    have hend := h.endsWord hkind
    rcases hfirst : token.value.toList with _ | ⟨d, ds⟩
    · exact absurd hfirst hvalue.1
    · have hd : isNameChar d = false := hend d (by simp [hfirst])
      rw [hvalue.2 d (by simp [hfirst])] at hd
      cases hd
  · rcases ofChar?_of_matches hprevious hkind with ⟨d, hd, hof⟩
    rw [hd, List.mem_singleton] at hmem
    cases hname : isNameChar c with
    | false => rfl
    | true =>
      rw [hmem] at hname
      rw [ofChar?_of_isNameChar hname] at hof
      cases hof

/-! ## The untrimmed line -/

namespace Text

theorem trimRight_append_blank (cs : List Char) :
    ∃ right, cs = trimRight cs ++ right ∧ ∀ c ∈ right, isBlank c = true := by
  refine ⟨(cs.reverse.takeWhile isBlank).reverse, ?_, ?_⟩
  · unfold trimRight
    rw [← List.reverse_append, List.takeWhile_append_dropWhile, List.reverse_reverse]
  · intro c hc
    exact List.mem_takeWhile_imp (List.mem_reverse.1 hc)

/-- A line is its trimmed text with blanks around it. -/
theorem exists_blanks (cs : List Char) :
    ∃ left right, cs = left ++ trim cs ++ right ∧ left.length = indent cs ∧
      (∀ c ∈ left, isBlank c = true) ∧ ∀ c ∈ right, isBlank c = true := by
  rcases trimRight_append_blank (trimLeft cs) with ⟨right, hright, hblank⟩
  refine ⟨cs.takeWhile isBlank, right, ?_, rfl, fun c hc => List.mem_takeWhile_imp hc, hblank⟩
  calc cs = cs.takeWhile isBlank ++ trimLeft cs := List.takeWhile_append_dropWhile.symm
    _ = cs.takeWhile isBlank ++ (trim cs ++ right) := by rw [hright]; rfl
    _ = cs.takeWhile isBlank ++ trim cs ++ right := (List.append_assoc _ _ _).symm

theorem length_trim_le (cs : List Char) : (trim cs).length ≤ cs.length := by
  rcases exists_blanks cs with ⟨left, right, hcs, -, -, -⟩
  have hlength := congrArg List.length hcs
  rw [List.length_append, List.length_append] at hlength
  omega

/-- A line that is not blank ends where its trimmed text does. -/
theorem length_trimRight {cs : List Char} (h : trim cs ≠ []) :
    (trimRight cs).length = indent cs + (trim cs).length := by
  have hne : ((trimLeft cs).reverse.dropWhile isBlank).isEmpty = false := by
    cases hnil : (trimLeft cs).reverse.dropWhile isBlank with
    | nil => exact absurd (by simp [trim, trimRight, hnil]) h
    | cons c rest => rfl
  have hsplit : cs.reverse = (trimLeft cs).reverse ++ (cs.takeWhile isBlank).reverse := by
    rw [← List.reverse_append, trimLeft, List.takeWhile_append_dropWhile]
  unfold trimRight
  rw [hsplit, List.dropWhile_append, hne]
  simp [trim, trimRight, indent]

end Text

theorem not_isNameChar_of_isBlank {c : Char} (h : Text.isBlank c = true) :
    isNameChar c = false := by
  cases hname : isNameChar c with
  | false => rfl
  | true =>
    rw [not_isBlank_of_isNameChar hname] at h
    cases h

theorem tiles_of_lineTokens {line : String} {tokens : List Token}
    (h : lineTokens line = .ok tokens) :
    Tiles (Text.indent line.toList) (Text.trim line.toList) tokens :=
  scan_eq_ok_iff.1 (mapError_eq_ok_iff.1 h)

/-! ## Tokens in their line -/

section

variable {line : String} {before after : List Token} {token : Token}

/-- The characters of the line around a token. -/
theorem line_eq_around (h : lineTokens line = .ok (before ++ token :: after)) :
    ∃ left right, line.toList =
        (left ++ spelling before) ++ token.value.toList ++ (spelling after ++ right) ∧
      token.offset = ((left ++ spelling before).length : Nat) ∧
      left.length = Text.indent line.toList ∧
      (∀ c ∈ left, Text.isBlank c = true) ∧ ∀ c ∈ right, Text.isBlank c = true := by
  have htiles := tiles_of_lineTokens h
  rcases Text.exists_blanks line.toList with ⟨left, right, hline, hlength, hleft, hright⟩
  refine ⟨left, right, ?_, ?_, hlength, hleft, hright⟩
  · rw [← htiles.spelling_eq] at hline
    simpa using hline
  · rw [htiles.offset_eq, List.length_append, hlength]

/-- A token stands at its offset, between the first and the last character that is not blank. -/
theorem standsAt_of_token (h : lineTokens line = .ok (before ++ token :: after)) :
    ∃ n : Nat, token.offset = n ∧ StandsAt line.toList n token.value.toList ∧
      Text.indent line.toList ≤ n ∧ n + token.value.toList.length ≤ lineEnd line := by
  rcases line_eq_around h with ⟨left, right, hline, hoffset, hlength, _, _⟩
  refine ⟨_, hoffset, ⟨_, _, hline, rfl⟩, ?_, ?_⟩
  · rw [List.length_append, hlength]
    exact Nat.le_add_right _ _
  · have htext := (tiles_of_lineTokens h).spelling_eq
    unfold lineEnd
    rw [← htext, spelling_append, spelling_cons]
    simp only [List.length_append, hlength]
    omega

/-- A punctuation mark stands at its offset. -/
theorem standsAt_of_mark (h : lineTokens line = .ok (before ++ token :: after))
    (text : List Char) (htext : ∀ cs, token.kind.Matches cs → cs = text) :
    ∃ n : Nat, token.offset = n ∧ StandsAt line.toList n text := by
  rcases standsAt_of_token h with ⟨n, hn, hstands, _⟩
  have hvalue := (tiles_of_lineTokens h).matches_value token (by simp)
  rw [htext _ hvalue] at hstands
  exact ⟨n, hn, hstands⟩

/-- A punctuation mark at the end of a line stands right before where the line ends. -/
theorem standsAt_of_last_mark (h : lineTokens line = .ok (before ++ [token]))
    (text : List Char) (htext : ∀ cs, token.kind.Matches cs → cs = text) :
    ∃ n : Nat, token.offset = n ∧ StandsAt line.toList n text ∧
      n + text.length = lineEnd line := by
  rcases standsAt_of_mark h text htext with ⟨n, hn, hstands⟩
  refine ⟨n, hn, hstands, ?_⟩
  have htiles := tiles_of_lineTokens h
  have hvalue := htext _ (htiles.matches_value token (by simp))
  have hoffset := htiles.offset_eq
  unfold lineEnd
  rw [← htiles.spelling_eq, spelling_append, spelling_cons, hvalue]
  simp only [spelling_nil, List.append_nil, List.length_append]
  omega

/-- An identifier of the line is a word at its offset. -/
theorem wordAt_of_token (h : lineTokens line = .ok (before ++ token :: after))
    (hk : token.kind = .identifier) :
    ∃ n : Nat, token.offset = n ∧ WordAt line.toList n token.value := by
  rcases line_eq_around h with ⟨left, right, hline, hoffset, _, hleft, hright⟩
  have htiles := tiles_of_lineTokens h
  have hvalue := htiles.matches_value token (by simp)
  rw [hk] at hvalue
  have hname : isName token.value = true := by
    unfold isName
    rw [Bool.and_eq_true, List.all_eq_true]
    exact ⟨by simp [hvalue.1], hvalue.2⟩
  refine ⟨_, hoffset, hname, _, _, hline, rfl, ?_, ?_⟩
  · intro c hc
    rw [List.getLast?_append] at hc
    cases hlast : (spelling before).getLast? with
    | some d =>
      rw [hlast] at hc
      exact htiles.startsWord hk c (by rw [hlast]; exact hc)
    | none =>
      rw [hlast] at hc
      exact not_isNameChar_of_isBlank (hleft c (List.mem_of_mem_getLast? hc))
  · intro c hc
    rw [List.head?_append] at hc
    cases hfirst : (spelling after).head? with
    | some d =>
      rw [hfirst] at hc
      exact htiles.endsWord hk c (by rw [hfirst]; exact hc)
    | none =>
      rw [hfirst] at hc
      exact not_isNameChar_of_isBlank (hright c (List.mem_of_mem_head? hc))

/-- Two tokens that follow each other stand side by side. -/
theorem standsAt_of_tokens {next : Token}
    (h : lineTokens line = .ok (before ++ token :: next :: after)) :
    ∃ n : Nat, token.offset = n ∧
      StandsAt line.toList n (token.value.toList ++ next.value.toList) := by
  rcases line_eq_around h with ⟨left, right, hline, hoffset, _, _, _⟩
  refine ⟨_, hoffset, left ++ spelling before, spelling after ++ right, ?_, rfl⟩
  rw [hline]
  simp

end

end TrafficKey
