import Mathlib
import TrafficKey.Token

/-!
# What the scanner cuts a line into

The terminals of a line are described one by one, and a tiling of a line is a way to cut it into
terminals, each as long as it can be. The scanner finds the tiling when there is one, and otherwise
stops at the first character that no terminal starts with.
-/

namespace TrafficKey

/-- The texts of a terminal. The end of input has none. -/
def TokenKind.Matches : TokenKind → List Char → Prop
  | .identifier, cs => cs ≠ [] ∧ ∀ c ∈ cs, isNameChar c = true
  | .colon, cs => cs = [':']
  | .comma, cs => cs = [',']
  | .lbracket, cs => cs = ['[']
  | .rbracket, cs => cs = [']']
  | .eof, _ => False

/-- The characters `cs`, the first of which stands at `offset`, are cut into `tokens`: each token is a
terminal that would not match one character more. -/
inductive Tiles : Nat → List Char → List Token → Prop
  | nil (offset : Nat) : Tiles offset [] []
  | cons {offset : Nat} {kind : TokenKind} {text rest : List Char} {tokens : List Token}
      (matched : kind.Matches text)
      (longest : ∀ c ∈ rest.head?, ¬ kind.Matches (text ++ [c]))
      (tail : Tiles (offset + text.length) rest tokens) :
      Tiles offset (text ++ rest) (⟨kind, String.ofList text, offset⟩ :: tokens)

/-- A character that some terminal consists of or is a run of. -/
def StartsToken (c : Char) : Prop :=
  ∃ kind : TokenKind, kind.Matches [c]

/-- `u` is the first of the characters `cs`, the first of which stands at `offset`, that no terminal
starts with. -/
def FirstUnmatched (offset : Nat) (cs : List Char) (u : Unmatched) : Prop :=
  ∃ before after, cs = before ++ u.char :: after ∧ u.offset = offset + before.length ∧
    (∀ c ∈ before, StartsToken c) ∧ ¬ StartsToken u.char

/-! ## Single characters -/

theorem ofChar?_eq_some {c : Char} {kind : TokenKind} (h : TokenKind.ofChar? c = some kind) :
    kind.Matches [c] ∧ kind ≠ .identifier := by
  unfold TokenKind.ofChar? at h
  split_ifs at h with hcolon hcomma hopen hclose
  all_goals cases h
  · simp [TokenKind.Matches, hcolon]
  · simp [TokenKind.Matches, hcomma]
  · simp [TokenKind.Matches, hopen]
  · simp [TokenKind.Matches, hclose]

/-- A terminal other than the identifier is one character, and is read off it. -/
theorem ofChar?_of_matches {kind : TokenKind} {text : List Char} (h : kind.Matches text)
    (hne : kind ≠ .identifier) : ∃ c, text = [c] ∧ TokenKind.ofChar? c = some kind := by
  cases kind with
  | identifier => exact absurd rfl hne
  | colon => exact ⟨':', h, rfl⟩
  | comma => exact ⟨',', h, rfl⟩
  | lbracket => exact ⟨'[', h, rfl⟩
  | rbracket => exact ⟨']', h, rfl⟩
  | eof => exact absurd h id

theorem ofChar?_of_isNameChar {c : Char} (h : isNameChar c = true) :
    TokenKind.ofChar? c = none := by
  have hc : c ≠ ':' ∧ c ≠ ',' ∧ c ≠ '[' ∧ c ≠ ']' := by
    refine ⟨?_, ?_, ?_, ?_⟩ <;> rintro rfl <;> revert h <;> decide
  simp [TokenKind.ofChar?, hc]

theorem startsToken_iff (c : Char) :
    StartsToken c ↔ (TokenKind.ofChar? c).isSome ∨ isNameChar c = true := by
  constructor
  · rintro ⟨kind, hm⟩
    by_cases hk : kind = .identifier
    · subst hk
      exact Or.inr (hm.2 c (by simp))
    · rcases ofChar?_of_matches hm hk with ⟨c', hc', hkind⟩
      cases hc'
      exact Or.inl (by simp [hkind])
  · rintro (hp | hn)
    · rcases Option.isSome_iff_exists.1 hp with ⟨kind, hkind⟩
      exact ⟨kind, (ofChar?_eq_some hkind).1⟩
    · exact ⟨.identifier, by simp, by simpa using hn⟩

theorem not_matches_append_singleton {kind : TokenKind} {c d : Char}
    (h : TokenKind.ofChar? c = some kind) : ¬ kind.Matches [c, d] := by
  have hm := ofChar?_eq_some h
  intro hd
  rcases ofChar?_of_matches hd hm.2 with ⟨e, he, _⟩
  simp at he

/-- A terminal with a punctuation mark in its text is that mark. -/
theorem eq_mark_of_mem {c : Char} {mark kind : TokenKind} {text : List Char}
    (hc : TokenKind.ofChar? c = some mark) (h : kind.Matches text) (hmem : c ∈ text) :
    kind = mark ∧ text = [c] := by
  by_cases hk : kind = .identifier
  · subst hk
    rw [ofChar?_of_isNameChar (h.2 c hmem)] at hc
    cases hc
  · obtain ⟨d, rfl, hd⟩ := ofChar?_of_matches h hk
    have hcd : c = d := List.mem_singleton.1 hmem
    subst hcd
    exact ⟨Option.some.inj (hd.symm.trans hc), rfl⟩

/-! ## Runs of identifier characters -/

/-- An identifier with no identifier character after it is cut off whole. -/
theorem takeWhile_dropWhile_run {run rest : List Char} (hrun : ∀ c ∈ run, isNameChar c = true)
    (hrest : ∀ c ∈ rest.head?, isNameChar c = false) :
    (run ++ rest).takeWhile isNameChar = run ∧ (run ++ rest).dropWhile isNameChar = rest := by
  have hstop : rest.takeWhile isNameChar = [] ∧ rest.dropWhile isNameChar = rest := by
    cases rest with
    | nil => simp
    | cons c cs =>
      have hc : isNameChar c = false := hrest c (by simp)
      simp [hc]
  rw [List.takeWhile_append_of_pos hrun, List.dropWhile_append_of_pos hrun, hstop.1, hstop.2]
  simp

/-- A line that starts with a token starts with a longest one. -/
theorem exists_longest {c : Char} (h : StartsToken c) (cs : List Char) :
    ∃ kind text rest, c :: cs = text ++ rest ∧ TokenKind.Matches kind text ∧
      ∀ d ∈ rest.head?, ¬ kind.Matches (text ++ [d]) := by
  rcases (startsToken_iff c).1 h with hp | hn
  · rcases Option.isSome_iff_exists.1 hp with ⟨kind, hkind⟩
    refine ⟨kind, [c], cs, rfl, (ofChar?_eq_some hkind).1, ?_⟩
    intro d _
    exact not_matches_append_singleton hkind
  · refine ⟨.identifier, c :: cs.takeWhile isNameChar, cs.dropWhile isNameChar, ?_, ?_, ?_⟩
    · simp [List.takeWhile_append_dropWhile]
    · refine ⟨by simp, ?_⟩
      intro d hd
      rcases List.mem_cons.1 hd with rfl | hd
      · exact hn
      · exact List.mem_takeWhile_imp hd
    · intro d hd hm
      have hname : isNameChar d = true := hm.2 d (by simp)
      have hstop := List.head?_dropWhile_not isNameChar cs
      rw [Option.mem_def.1 hd] at hstop
      simp [hname] at hstop

/-! ## One token at a time -/

theorem scan_nil (offset : Nat) : scan offset [] = .ok [] := by
  rw [scan]

/-- A longest terminal at the start of a line is its first token. -/
theorem scan_append {kind : TokenKind} {text rest : List Char} (offset : Nat)
    (hm : kind.Matches text) (hmax : ∀ c ∈ rest.head?, ¬ kind.Matches (text ++ [c])) :
    scan offset (text ++ rest) =
      (scan (offset + text.length) rest).map (⟨kind, String.ofList text, offset⟩ :: ·) := by
  by_cases hk : kind = .identifier
  · subst hk
    rcases hm with ⟨hne, hall⟩
    have hrest : ∀ c ∈ rest.head?, isNameChar c = false := by
      intro c hc
      by_contra hname
      refine hmax c hc ⟨by simp, ?_⟩
      intro d hd
      rcases List.mem_append.1 hd with hd | hd
      · exact hall d hd
      · rw [List.mem_singleton.1 hd]
        simpa using hname
    cases text with
    | nil => exact absurd rfl hne
    | cons c cs =>
      have hc : isNameChar c = true := hall c (by simp)
      have hcs : ∀ d ∈ cs, isNameChar d = true := fun d hd => hall d (by simp [hd])
      have hcut := takeWhile_dropWhile_run hcs hrest
      rw [List.cons_append, scan]
      simp only [ofChar?_of_isNameChar hc, hc, if_true, hcut.1, hcut.2]
      rfl
  · -- a punctuation mark is one character
    rcases ofChar?_of_matches hm hk with ⟨c, rfl, hc⟩
    rw [List.singleton_append, scan]
    simp only [hc]
    rfl

theorem scan_of_not_startsToken {c : Char} (h : ¬ StartsToken c) (offset : Nat)
    (cs : List Char) : scan offset (c :: cs) = .error ⟨offset, c⟩ := by
  rw [startsToken_iff, not_or] at h
  have hp : TokenKind.ofChar? c = none := by simpa using h.1
  rw [scan]
  simp [hp, h.2]

/-- Induction along a scan: a line is empty, starts with a longest terminal, or cannot be scanned. -/
theorem scan_induction {motive : Nat → List Char → Prop}
    (nil : ∀ offset, motive offset [])
    (token : ∀ offset kind text rest, TokenKind.Matches kind text →
      (∀ c ∈ rest.head?, ¬ kind.Matches (text ++ [c])) →
      motive (offset + text.length) rest → motive offset (text ++ rest))
    (stuck : ∀ offset c cs, ¬ StartsToken c → motive offset (c :: cs)) :
    ∀ offset cs, motive offset cs := by
  intro offset cs
  induction hn : cs.length using Nat.strong_induction_on generalizing offset cs with
  | _ n ih =>
    cases cs with
    | nil => exact nil offset
    | cons c cs =>
      by_cases hc : StartsToken c
      · rcases exists_longest hc cs with ⟨kind, text, rest, hcs, hm, hmax⟩
        have hpos : 0 < text.length := by
          refine List.length_pos_iff.2 ?_
          rintro rfl
          cases kind <;> simp [TokenKind.Matches] at hm
        have hlen : text.length + rest.length = n := by
          rw [← hn, hcs, List.length_append]
        rw [hcs]
        exact token offset kind text rest hm hmax (ih rest.length (by omega) _ rest rfl)
      · exact stuck offset c cs hc

/-! ## The scanner finds the tiling -/

theorem scan_eq_ok_iff {offset : Nat} {cs : List Char} {tokens : List Token} :
    scan offset cs = .ok tokens ↔ Tiles offset cs tokens := by
  constructor
  · induction offset, cs using scan_induction generalizing tokens with
    | nil offset =>
      intro h
      rw [scan_nil] at h
      cases h
      exact .nil offset
    | token offset kind text rest hm hmax ih =>
      intro h
      rw [scan_append offset hm hmax] at h
      cases hs : scan (offset + text.length) rest with
      | error u => simp [hs, Except.map] at h
      | ok tail =>
        rw [hs] at h
        cases h
        exact .cons hm hmax (ih hs)
    | stuck offset c cs hc =>
      intro h
      rw [scan_of_not_startsToken hc] at h
      cases h
  · intro h
    induction h with
    | nil offset => exact scan_nil offset
    | cons hm hmax _ ih => rw [scan_append _ hm hmax, ih]; rfl

theorem startsToken_of_matches {kind : TokenKind} {text : List Char} (h : kind.Matches text) :
    ∀ c ∈ text, StartsToken c := by
  intro c hc
  by_cases hk : kind = .identifier
  · subst hk
    exact (startsToken_iff c).2 (Or.inr (h.2 c hc))
  · rcases ofChar?_of_matches h hk with ⟨d, rfl, hd⟩
    rw [List.mem_singleton.1 hc]
    exact ⟨kind, h⟩

theorem scan_eq_error {offset : Nat} {cs : List Char} {u : Unmatched}
    (h : scan offset cs = .error u) : FirstUnmatched offset cs u := by
  induction offset, cs using scan_induction with
  | nil offset =>
    rw [scan_nil] at h
    cases h
  | token offset kind text rest hm hmax ih =>
    rw [scan_append offset hm hmax] at h
    cases hs : scan (offset + text.length) rest with
    | ok tail => simp [hs, Except.map] at h
    | error v =>
      rw [hs] at h
      cases h
      rcases ih hs with ⟨before, after, hrest, hoff, hall, hnot⟩
      refine ⟨text ++ before, after, ?_, ?_, ?_, hnot⟩
      · rw [hrest, List.append_assoc]
      · rw [hoff, List.length_append, Nat.add_assoc]
      · intro c hc
        rcases List.mem_append.1 hc with hc | hc
        · exact startsToken_of_matches hm c hc
        · exact hall c hc
  | stuck offset c cs hc =>
    rw [scan_of_not_startsToken hc] at h
    cases h
    exact ⟨[], cs, rfl, by simp, by simp, hc⟩

/-- There is only one first character that starts no token. -/
theorem FirstUnmatched.unique {offset : Nat} {cs : List Char} {u v : Unmatched}
    (hu : FirstUnmatched offset cs u) (hv : FirstUnmatched offset cs v) : u = v := by
  rcases u with ⟨uoff, uchar⟩
  rcases v with ⟨voff, vchar⟩
  rcases hu with ⟨before, after, rfl, rfl, hall, hnot⟩
  rcases hv with ⟨before', after', heq, hoff, hall', hnot'⟩
  dsimp only at heq hoff hnot hnot' hall hall'
  have hchars : before = before' ∧ uchar = vchar := by
    -- a shorter prefix would have the other's unmatched character among its tokens
    rcases List.append_eq_append_iff.1 heq with ⟨mid, hmid, hrest⟩ | ⟨mid, hmid, hrest⟩
    · cases mid with
      | nil => simp_all
      | cons d ds =>
        have hd : d = uchar := by simpa using (List.cons.inj hrest).1.symm
        exact absurd (hall' d (by simp [hmid])) (hd ▸ hnot)
    · cases mid with
      | nil => simp_all
      | cons d ds =>
        have hd : d = vchar := by simpa using (List.cons.inj hrest).1.symm
        exact absurd (hall d (by simp [hmid])) (hd ▸ hnot')
  rw [hchars.1, hchars.2, hoff]

/-! ## The text of the tokens -/

/-- The characters of the tokens, one token after the other. -/
def spelling (tokens : List Token) : List Char :=
  tokens.flatMap (·.value.toList)

@[simp] theorem spelling_nil : spelling [] = [] := rfl

@[simp] theorem spelling_cons (token : Token) (tokens : List Token) :
    spelling (token :: tokens) = token.value.toList ++ spelling tokens := rfl

@[simp] theorem spelling_append (tokens more : List Token) :
    spelling (tokens ++ more) = spelling tokens ++ spelling more := by
  simp [spelling]

/-- Tokens lose no character of the line. -/
theorem Tiles.spelling_eq {offset : Nat} {cs : List Char} {tokens : List Token}
    (h : Tiles offset cs tokens) : spelling tokens = cs := by
  induction h with
  | nil offset => rfl
  | cons hm hmax _ ih => simp [ih]

/-- Every token of a line has the text of its terminal. -/
theorem Tiles.matches_value {offset : Nat} {cs : List Char} {tokens : List Token}
    (h : Tiles offset cs tokens) : ∀ token ∈ tokens, token.kind.Matches token.value.toList := by
  induction h with
  | nil offset => simp
  | cons hm hmax _ ih =>
    intro token htoken
    rcases List.mem_cons.1 htoken with rfl | htoken
    · simpa using hm
    · exact ih token htoken

/-- Every character of a line that is cut into tokens starts one. -/
theorem Tiles.startsToken {offset : Nat} {cs : List Char} {tokens : List Token}
    (h : Tiles offset cs tokens) : ∀ c ∈ cs, StartsToken c := by
  intro c hc
  rw [← h.spelling_eq] at hc
  rcases List.mem_flatMap.1 hc with ⟨token, htoken, hc⟩
  exact startsToken_of_matches (h.matches_value token htoken) c hc

theorem exists_tiles (offset : Nat) {cs : List Char} (h : ∀ c ∈ cs, StartsToken c) :
    ∃ tokens, Tiles offset cs tokens := by
  cases hscan : scan offset cs with
  | ok tokens => exact ⟨tokens, scan_eq_ok_iff.1 hscan⟩
  | error u =>
    rcases scan_eq_error hscan with ⟨before, after, rfl, _, _, hnot⟩
    exact absurd (h u.char (by simp)) hnot

/-! ## Blanks -/

theorem not_isBlank_of_isNameChar {c : Char} (h : isNameChar c = true) :
    Text.isBlank c = false := by
  have hrange : (48 ≤ c.toNat ∧ c.toNat ≤ 57) ∨ (65 ≤ c.toNat ∧ c.toNat ≤ 90) ∨
      c.toNat = 95 ∨ (97 ≤ c.toNat ∧ c.toNat ≤ 122) := by
    simp only [isNameChar, Char.isAlphanum, Char.isAlpha, Char.isUpper, Char.isLower,
      Char.isDigit, Bool.or_eq_true, Bool.and_eq_true, decide_eq_true_eq, beq_iff_eq,
      UInt32.le_iff_toNat_le] at h
    rcases h with ((hupper | hlower) | hdigit) | rfl
    · exact Or.inr (Or.inl hupper)
    · exact Or.inr (Or.inr (Or.inr hlower))
    · exact Or.inl hdigit
    · exact Or.inr (Or.inr (Or.inl rfl))
  unfold Text.isBlank
  simp only [Bool.or_eq_false_iff, Bool.and_eq_false_iff, decide_eq_false_iff_not,
    beq_eq_false_iff_ne]
  omega

theorem StartsToken.not_isBlank {c : Char} (h : StartsToken c) : Text.isBlank c = false := by
  rcases h with ⟨kind, hm⟩
  cases kind with
  | identifier => exact not_isBlank_of_isNameChar (hm.2 c (by simp))
  | colon | comma | lbracket | rbracket =>
    cases hm
    decide
  | eof => exact absurd hm id

/-- A line that is cut into tokens has no blank. -/
theorem Tiles.not_isBlank {offset : Nat} {cs : List Char} {tokens : List Token}
    (h : Tiles offset cs tokens) : ∀ c ∈ cs, Text.isBlank c = false :=
  fun c hc => (h.startsToken c hc).not_isBlank

/-- There is nothing to trim off a line without blanks. -/
theorem trim_of_not_isBlank {cs : List Char} (h : ∀ c ∈ cs, Text.isBlank c = false) :
    Text.trim cs = cs := by
  have hdrop : ∀ l : List Char, (∀ c ∈ l, Text.isBlank c = false) →
      l.dropWhile Text.isBlank = l := by
    intro l hl
    cases l with
    | nil => rfl
    | cons c l => rw [List.dropWhile_cons_of_neg (by simp [hl c])]
  unfold Text.trim Text.trimLeft Text.trimRight
  rw [hdrop cs h, hdrop cs.reverse (fun c hc => h c (List.mem_reverse.1 hc)),
    List.reverse_reverse]

/-- A line without blanks is not indented. -/
theorem indent_of_not_isBlank {cs : List Char} (h : ∀ c ∈ cs, Text.isBlank c = false) :
    Text.indent cs = 0 := by
  unfold Text.indent
  rw [List.length_eq_zero_iff, List.takeWhile_eq_nil_iff]
  intro hpos
  simp [h]

/-- A text that is cut into tokens is a line by itself. -/
theorem Tiles.lineTokens_eq {line : String} {tokens : List Token}
    (h : Tiles 0 line.toList tokens) :
    lineTokens line = .ok tokens ∧ lineEnd line = line.toList.length := by
  have htrim : Text.trim line.toList = line.toList := trim_of_not_isBlank h.not_isBlank
  have hindent : Text.indent line.toList = 0 := indent_of_not_isBlank h.not_isBlank
  unfold lineTokens lineEnd
  rw [htrim, hindent, scan_eq_ok_iff.2 h, Nat.zero_add]
  exact ⟨rfl, rfl⟩

end TrafficKey
