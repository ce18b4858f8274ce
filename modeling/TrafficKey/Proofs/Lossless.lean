import TrafficKey.Proofs.Offsets
import TrafficKey.Proofs.Runs
import TrafficKey.Proofs.Scanning
import TrafficKey.Proofs.Steps
import TrafficKey.Proofs.WellFormed

/-!
# Reading loses no text

Every token that is read stands in what is built from it, in its place, and nothing else does: the text
of a state is the text of the tokens read so far. So the text of a definition is the trimmed line it
was read from, and two lines are read as the same definition just when they are equal after trimming.
-/

namespace TrafficKey

/-! ## Texts -/

theorem Argument.texts_append (args more : List Argument) :
    Argument.texts (args ++ more) = Argument.texts args ++ Argument.texts more := by
  induction args with
  | nil => simp [Argument.texts]
  | cons arg args ih => simp [Argument.texts, ih, String.append_assoc]

namespace Direct

theorem OpenCall.close_push_text (call : OpenCall) (arg : Argument) :
    (call.push arg).close.text = call.close.text ++ ":" ++ arg.text := by
  simp [OpenCall.push, OpenCall.close, FunctionShape.build, Call.text, Argument.texts_append,
    Argument.texts, String.append_assoc]

/-- The text of the calls that have an open bracket, up to the innermost of these brackets. -/
def openText : List OpenCall → List Char
  | [] => []
  | call :: outer => openText outer ++ call.close.text.toList ++ [':', '[']

/-- The text of the current key as far as it has been read. -/
def Stage.text : Stage → List Char
  | .start => []
  | .afterComma _ => []
  | .keyName name => name.value.toList
  | .argument _ call outer => openText outer ++ call.close.text.toList ++ [':']
  | .afterArgument call outer => openText outer ++ call.close.text.toList
  | .opened call outer => openText (call :: outer)
  | .named name call outer => openText (call :: outer) ++ name.value.toList

/-- The text of what has been read: the keys, each with the comma after it, and the current key. -/
def State.text (s : State) : List Char :=
  s.keys.flatMap (fun key => key.text.toList ++ [',']) ++ s.stage.text

/-! ## One token -/

/-- A call without arguments has the text of its name. -/
theorem toList_close_start {t : Tables} {name : Token} {shape : FunctionShape}
    (h : t.registry.lookup name.value = some shape) :
    (OpenCall.mk shape name []).close.text.toList = name.value.toList := by
  have hname : shape.name = name.value := Table.name_of_lookup h
  simp [OpenCall.close, FunctionShape.build, Call.text, Argument.texts, hname]

theorem toList_asArgument_text (call : Call) :
    call.asArgument.text.toList = '[' :: (call.text.toList ++ [']']) := by
  simp [Call.asArgument, Argument.text, Call.text]

/-- A token that is read adds its own text at the end. -/
theorem Step.text_eq {t : Tables} {s s' : State} {token : Token} (h : Step t s token s')
    (hvalue : token.kind.Matches token.value.toList) :
    s'.text = s.text ++ token.value.toList := by
  cases h with
  | keyName hstage hk =>
    rcases hstage with rfl | ⟨comma, rfl⟩ <;> simp [State.text, Stage.text]
  | openKey hk hl =>
    -- the call's text starts with the name that the registry has, which is the one in the line
    have hcolon : token.value.toList = [':'] := by rwa [hk] at hvalue
    simp [State.text, Stage.text, openText, toList_close_start hl, hcolon]
  | @endName name _ entry _ _ _ hk hl =>
    have hcomma : token.value.toList = [','] := by rwa [hk] at hvalue
    have hname : entry.name = name.value := Table.name_of_lookup hl
    simp [State.text, Stage.text, Key.text, hname, hcomma]
  | literal hk hkind => simp [State.text, Stage.text, OpenCall.close_push_text, Argument.text]
  | @key _ _ _ _ entry _ _ _ hk hkind hl =>
    have hname : entry.name = token.value := Table.name_of_lookup hl
    simp [State.text, Stage.text, OpenCall.close_push_text, Argument.text, hname]
  | openBracket hk hkind hd =>
    have hopen : token.value.toList = ['['] := by rwa [hk] at hvalue
    simp [State.text, Stage.text, openText, hopen]
  | nextArgument hk =>
    have hcolon : token.value.toList = [':'] := by rwa [hk] at hvalue
    simp [State.text, Stage.text, hcolon]
  | endComputed hk ha =>
    have hcomma : token.value.toList = [','] := by rwa [hk] at hvalue
    simp [State.text, Stage.text, openText, Key.text, hcomma]
  | closeBracket hk ha =>
    -- what stood before the bracket and inside it is now the parent's last argument
    have hclose : token.value.toList = [']'] := by rwa [hk] at hvalue
    simp [State.text, Stage.text, openText, OpenCall.close_push_text, toList_asArgument_text,
      hclose]
  | nestedName hk => simp [State.text, Stage.text]
  | openNested hk hl =>
    have hcolon : token.value.toList = [':'] := by rwa [hk] at hvalue
    simp [State.text, Stage.text, openText, toList_close_start hl, hcolon]

/-! ## A whole line -/

theorem text_of_feed {t : Tables} {tokens : List Token} {s : State}
    (hvalues : ∀ token ∈ tokens, token.kind.Matches token.value.toList)
    (h : feed t {} tokens = .ok s) : s.text = spelling tokens := by
  -- the invariant speaks of the tokens read so far, so it asks the same of them as of all
  have hstep : ∀ (done : List Token) (s : State) (token : Token) (s' : State),
      ((∀ x ∈ done, x.kind.Matches x.value.toList) → s.text = spelling done) →
      step t s token = .ok s' →
      (∀ x ∈ done ++ [token], x.kind.Matches x.value.toList) →
      s'.text = spelling (done ++ [token]) := by
    intro done s token s' hs hstep hmatch
    rw [List.forall_mem_append] at hmatch
    have hvalue := hmatch.2 token (by simp)
    rw [(Step.of_step_eq hstep).text_eq hvalue, hs hmatch.1]
    simp
  exact foldlM_invariant hstep (fun _ => rfl) h hvalues

theorem toList_text_snoc (keys : List Key) (last : Key) :
    (Definition.snoc keys last).text.toList =
      keys.flatMap (fun key => key.text.toList ++ [',']) ++ last.text.toList := by
  have htexts : ∀ keys : List Key, (Key.texts (keys ++ [last])).toList =
      ',' :: (keys.flatMap (fun key => key.text.toList ++ [',']) ++ last.text.toList) := by
    intro keys
    induction keys with
    | nil => simp [Key.texts]
    | cons key keys ih => simp [Key.texts, ih]
  cases keys with
  | nil => simp [Definition.snoc, Definition.text, Key.texts]
  | cons key keys => simp [Definition.snoc, Definition.text, htexts]

theorem Finish.text_eq {t : Tables} {s : State} {d : Definition} (h : Finish t s d) :
    d.text.toList = s.text := by
  cases h with
  | @name name entry _ _ _ hl =>
    have hname : entry.name = name.value := Table.name_of_lookup hl
    simp [toList_text_snoc, State.text, Stage.text, Key.text, hname]
  | computed ha => simp [toList_text_snoc, State.text, Stage.text, openText, Key.text]

theorem text_of_readTrimmed {t : Tables} {cs : List Char} {d : Definition}
    (h : readTrimmed t cs = .ok d) : d.text.toList = cs := by
  rcases bind_eq_ok.1 h with ⟨tokens, hscan, hread⟩
  rcases bind_eq_ok.1 (mapError_eq_ok_iff.1 hread) with ⟨s, hfeed, hfinish⟩
  have htiles : Tiles 0 cs tokens := scan_eq_ok_iff.1 (mapError_eq_ok_iff.1 hscan)
  calc d.text.toList = s.text := (Finish.of_finish_eq hfinish).text_eq
    _ = spelling tokens := text_of_feed htiles.matches_value hfeed
    _ = cs := htiles.spelling_eq

end Direct

/-! ## Equal definitions -/

mutual

theorem Argument.same_refl : ∀ arg : Argument, arg.same arg = true
  | .literal value => by simp [Argument.same]
  | .key entry => by simp [Argument.same]
  | .nested callee args => by simp [Argument.same, Argument.sameAll_refl args]

theorem Argument.sameAll_refl : ∀ args : List Argument, Argument.sameAll args args = true
  | [] => by simp [Argument.sameAll]
  | arg :: args => by simp [Argument.sameAll, Argument.same_refl arg, Argument.sameAll_refl args]

end

mutual

theorem Argument.text_eq_of_same :
    ∀ {a b : Argument}, a.same b = true → a.text = b.text
  | .literal a, .literal b, h => by simpa [Argument.same, Argument.text] using h
  | .key a, .key b, h => by simpa [Argument.same, Argument.text] using h
  | .nested f as, .nested g bs, h => by
    rw [Argument.same, Bool.and_eq_true, beq_iff_eq] at h
    rw [Argument.text, Argument.text, h.1, Argument.texts_eq_of_sameAll h.2]

theorem Argument.texts_eq_of_sameAll :
    ∀ {as bs : List Argument}, Argument.sameAll as bs = true →
      Argument.texts as = Argument.texts bs
  | [], [], _ => rfl
  | a :: as, b :: bs, h => by
    rw [Argument.sameAll, Bool.and_eq_true] at h
    rw [Argument.texts, Argument.texts, Argument.text_eq_of_same h.1,
      Argument.texts_eq_of_sameAll h.2]

end

theorem Key.same_refl (key : Key) : key.same key = true := by
  cases key with
  | name entry => simp [Key.same]
  | computed call => simp [Key.same, Call.same, Argument.sameAll_refl]

theorem Key.text_eq_of_same {a b : Key} (h : a.same b = true) : a.text = b.text := by
  cases a with
  | name a =>
    cases b with
    | name b => simpa [Key.same, Key.text] using h
    | computed b => cases h
  | computed a =>
    cases b with
    | name b => cases h
    | computed b =>
      rw [Key.same, Call.same, Bool.and_eq_true, beq_iff_eq] at h
      rw [Key.text, Key.text, Call.text, Call.text, h.1, Argument.texts_eq_of_sameAll h.2]

theorem Key.sameAll_refl (keys : List Key) : Key.sameAll keys keys = true := by
  induction keys with
  | nil => rfl
  | cons key keys ih => simp [Key.sameAll, Key.same_refl, ih]

theorem Key.texts_eq_of_sameAll {keys keys' : List Key} (h : Key.sameAll keys keys' = true) :
    Key.texts keys = Key.texts keys' := by
  induction keys generalizing keys' with
  | nil =>
    cases keys' with
    | nil => rfl
    | cons key' keys' => cases h
  | cons key keys ih =>
    cases keys' with
    | nil => cases h
    | cons key' keys' =>
      rw [Key.sameAll, Bool.and_eq_true] at h
      rw [Key.texts, Key.texts, Key.text_eq_of_same h.1, ih h.2]

/-- Definitions that differ in descriptions only have the same text. -/
theorem Definition.text_eq_of_same {d d' : Definition} (h : d.same d' = true) :
    d.text = d'.text := by
  rcases d with ⟨_ | ⟨key, keys⟩, hne⟩
  · exact absurd rfl hne
  rcases d' with ⟨_ | ⟨key', keys'⟩, hne'⟩
  · exact absurd rfl hne'
  have hboth : key.same key' = true ∧ Key.sameAll keys keys' = true := by
    simpa [Definition.same, Key.sameAll] using h
  simp only [Definition.text]
  rw [Key.text_eq_of_same hboth.1, Key.texts_eq_of_sameAll hboth.2]

namespace Direct

theorem text_of_parse_eq {t : Tables} {line : String} {d : Definition}
    (h : parse t line = .ok d) : d.text = Text.trimmed line := by
  rw [parse_eq_readTrimmed, mapError_eq_ok_iff] at h
  have htext := text_of_readTrimmed h
  unfold Text.trimmed
  rw [← htext, String.ofList_toList]

/-- Lines that are equal after trimming are read as the same definition. -/
theorem eq_of_trimmed_eq {t : Tables} {line line' : String} {d d' : Definition}
    (h : parse t line = .ok d) (h' : parse t line' = .ok d')
    (htrim : Text.trimmed line = Text.trimmed line') : d = d' := by
  have hchars : Text.trim line.toList = Text.trim line'.toList := String.ofList_injective htrim
  rw [parse_eq_readTrimmed, mapError_eq_ok_iff] at h h'
  rw [hchars, h'] at h
  cases h
  rfl

/-- **Reading loses no text.** The text of what is read is the trimmed line. Two lines that are read
with the same tables give the same definition, descriptions counted or not, just when they are equal
after trimming. -/
theorem parse_lossless {t : Tables} {line : String} {d : Definition} (h : parse t line = .ok d) :
    d.text = Text.trimmed line ∧
      ∀ line' d', parse t line' = .ok d' →
        (d.same d' = true ↔ Text.trimmed line = Text.trimmed line') ∧
          (d = d' ↔ Text.trimmed line = Text.trimmed line') := by
  refine ⟨text_of_parse_eq h, ?_⟩
  intro line' d' h'
  have htext : d.same d' = true → Text.trimmed line = Text.trimmed line' := by
    intro hsame
    rw [← text_of_parse_eq h, ← text_of_parse_eq h', Definition.text_eq_of_same hsame]
  have hrefl : d = d' → d.same d' = true := by
    rintro rfl
    exact Key.sameAll_refl d.keys
  refine ⟨⟨htext, ?_⟩, ⟨fun heq => htext (hrefl heq), eq_of_trimmed_eq h h'⟩⟩
  exact fun htrim => hrefl (eq_of_trimmed_eq h h' htrim)

theorem parse_lossless_indented :
    ∃ d d', parse .builtin "\t or:ipsource:[asn:x]\n" = .ok d ∧
      parse .builtin "or:ipsource:[asn:y]" = .ok d' ∧
      d.text = Text.trimmed "\t or:ipsource:[asn:x]\n" ∧
      (d = d' ↔
        Text.trimmed "\t or:ipsource:[asn:x]\n" = Text.trimmed "or:ipsource:[asn:y]") := by
  have h : parse .builtin "\t or:ipsource:[asn:x]\n" =
      .ok (.snoc [] (.computed ⟨⟨.plain, "or"⟩, [.key ⟨"ipsource", "IPv4 source address"⟩,
        .nested ⟨.plain, "asn"⟩ [.literal "x"]]⟩)) := by
    cbv
  have h' : parse .builtin "or:ipsource:[asn:y]" =
      .ok (.snoc [] (.computed ⟨⟨.plain, "or"⟩, [.key ⟨"ipsource", "IPv4 source address"⟩,
        .nested ⟨.plain, "asn"⟩ [.literal "y"]]⟩)) := by
    cbv
  have hlossless := parse_lossless h
  exact ⟨_, _, h, h', hlossless.1, (hlossless.2 _ _ h').2⟩

end Direct

end TrafficKey
