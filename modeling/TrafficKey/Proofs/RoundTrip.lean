import TrafficKey.Proofs.Refusals
import TrafficKey.Proofs.Scanning
import TrafficKey.Proofs.WellFormed

/-!
# Writing a definition and reading it again

The text of a definition that fits the tables is read as that definition, unless it has more brackets
open at once than are allowed: then it is read up to such a bracket. Scanning and reading are followed
together: `ReadsTo` says what comes of the characters that are left when they are cut into tokens and
read from some state on, and for each part of a text it is enough to know this of what comes after the
part.
-/

namespace TrafficKey

/-! ## Words -/

mutual

/-- The names and bare words of an argument. -/
def Argument.words : Argument → List String
  | .literal value => [value]
  | .key entry => [entry.name]
  | .nested callee args => callee.name :: Argument.wordsAll args

/-- The names and bare words of an argument list. -/
def Argument.wordsAll : List Argument → List String
  | [] => []
  | arg :: args => arg.words ++ Argument.wordsAll args

end

/-- The names and bare words of a key. -/
def Key.words : Key → List String
  | .name entry => [entry.name]
  | .computed call => call.asArgument.words

/-- The names and bare words of a definition, in order. -/
def Definition.words (d : Definition) : List String :=
  d.keys.flatMap Key.words

theorem matches_of_isName {w : String} (h : isName w = true) :
    TokenKind.identifier.Matches w.toList := by
  unfold isName at h
  rw [Bool.and_eq_true, List.all_eq_true] at h
  refine ⟨?_, h.2⟩
  intro hnil
  simp [hnil] at h

/-- A word cannot go on with these characters. -/
def EndsWord (cs : List Char) : Prop :=
  ∀ c ∈ cs.head?, isNameChar c = false

theorem endsWord_nil : EndsWord [] := by
  simp [EndsWord]

theorem endsWord_mark {c : Char} {kind : TokenKind} (h : TokenKind.ofChar? c = some kind)
    (cs : List Char) : EndsWord (c :: cs) := by
  intro d hd
  cases hd
  cases hname : isNameChar c with
  | false => rfl
  | true =>
    rw [ofChar?_of_isNameChar hname] at h
    cases h

/-- More brackets are open at once in the definition than are allowed. -/
def Definition.TooDeep (d : Definition) : Prop :=
  ∃ key ∈ d.keys, maxDepth < key.depth

/-! ## Reading on from a state -/

namespace Direct

/-- What may come of reading the text of a definition: the definition or, if too many brackets are open
at once in it, a rejection for that reason. -/
inductive Outcome (t : Tables) (d : Definition) : Except Rejection State → Prop
  | read {s : State} (h : Finish t s d) : Outcome t d (.ok s)
  | tooDeep {r : Rejection} {offset : Int} (hdeep : d.TooDeep)
      (h : r.diagnostic = .malformed offset .lessNesting none) : Outcome t d (.error r)

/-- From the state on, the characters are cut into tokens and read with such an outcome, wherever the
characters stand. -/
def ReadsTo (t : Tables) (s : State) (cs : List Char) (d : Definition) : Prop :=
  ∀ offset, ∃ tokens, Tiles offset cs tokens ∧ Outcome t d (feed t s tokens)

variable {t : Tables} {s : State} {d : Definition} {rest : List Char}

theorem feed_cons {s' : State} {token : Token} (hstep : Step t s token s') (tokens : List Token) :
    feed t s (token :: tokens) = feed t s' tokens := by
  unfold feed
  rw [List.foldlM_cons, hstep.step_eq]
  rfl

theorem feed_cons_refused {token : Token} {r : Rejection} (h : Refusal t s token r)
    (tokens : List Token) : feed t s (token :: tokens) = .error r := by
  unfold feed
  rw [List.foldlM_cons, h.step_eq]
  rfl

theorem readsTo_nil (h : Finish t s d) : ReadsTo t s [] d :=
  fun offset => ⟨[], .nil offset, .read h⟩

theorem readsTo_token {kind : TokenKind} {text : List Char} (hm : kind.Matches text)
    (hmax : ∀ c ∈ rest.head?, ¬ kind.Matches (text ++ [c]))
    (h : ∀ token : Token, token.kind = kind → token.value = String.ofList text →
      ∃ s', Step t s token s' ∧ ReadsTo t s' rest d) : ReadsTo t s (text ++ rest) d := by
  intro offset
  rcases h ⟨kind, String.ofList text, offset⟩ rfl rfl with ⟨s', hstep, hreads⟩
  rcases hreads (offset + text.length) with ⟨tokens, htiles, hout⟩
  refine ⟨_, .cons hm hmax htiles, ?_⟩
  rw [feed_cons hstep]
  exact hout

/-- A punctuation mark is read by itself. -/
theorem readsTo_mark {c : Char} {kind : TokenKind} (hc : TokenKind.ofChar? c = some kind)
    (h : ∀ token : Token, token.kind = kind → ∃ s', Step t s token s' ∧ ReadsTo t s' rest d) :
    ReadsTo t s (c :: rest) d :=
  readsTo_token (ofChar?_eq_some hc).1 (fun _ _ => not_matches_append_singleton hc)
    (fun token hk _ => h token hk)

/-- A word is read whole if it cannot go on. -/
theorem readsTo_word {w : String} (hw : isName w = true) (hend : EndsWord rest)
    (h : ∀ token : Token, token.kind = .identifier → token.value = w →
      ∃ s', Step t s token s' ∧ ReadsTo t s' rest d) : ReadsTo t s (w.toList ++ rest) d := by
  refine readsTo_token (matches_of_isName hw) ?_ ?_
  · intro c hc hm
    have hname : isNameChar c = true := hm.2 c (by simp)
    rw [hend c hc] at hname
    cases hname
  · intro token hk hv
    exact h token hk (by rw [hv, String.ofList_toList])

/-- An opening bracket is read, or is one too many. -/
theorem readsTo_bracket {colon : Token} {call : OpenCall} {outer : List OpenCall}
    {keys : List Key} {read depth : Nat} (hkind : call.nextKind ≠ some .literal)
    (hdeep : maxDepth ≤ depth → d.TooDeep)
    (h : ReadsTo t ⟨.opened call outer, keys, read + 1, depth + 1⟩ rest d) :
    ReadsTo t ⟨.argument colon call outer, keys, read, depth⟩ ('[' :: rest) d := by
  by_cases hdepth : depth < maxDepth
  · refine readsTo_mark rfl ?_
    intro opening hk
    exact ⟨_, .openBracket hk hkind hdepth, h⟩
  · -- what follows is cut into tokens all the same
    intro offset
    obtain ⟨tokens, htiles, _⟩ := h (offset + 1)
    have hlimit : maxDepth ≤ depth := Nat.le_of_not_lt hdepth
    have hc : TokenKind.ofChar? '[' = some .lbracket := rfl
    refine ⟨_, .cons (ofChar?_eq_some hc).1 (fun _ _ => not_matches_append_singleton hc) htiles, ?_⟩
    rw [feed_cons_refused (.tooDeep rfl hkind hlimit)]
    exact .tooDeep (hdeep hlimit) rfl

/-! ## Arguments -/

theorem toList_texts_cons (arg : Argument) (args : List Argument) (rest : List Char) :
    (Argument.texts (arg :: args)).toList ++ rest =
      ':' :: (arg.text.toList ++ ((Argument.texts args).toList ++ rest)) := by
  simp [Argument.texts]

theorem toList_text_nested (callee : Callee) (args : List Argument) (rest : List Char) :
    (Argument.text (.nested callee args)).toList ++ rest =
      '[' :: (callee.name.toList ++ ((Argument.texts args).toList ++ ']' :: rest)) := by
  simp [Argument.text]

theorem endsWord_texts (args : List Argument) (h : EndsWord rest) :
    EndsWord ((Argument.texts args).toList ++ rest) := by
  cases args with
  | nil => simpa [Argument.texts] using h
  | cons arg args =>
    rw [toList_texts_cons]
    exact endsWord_mark rfl _

/-- The text of the argument is read as the argument wherever a call may have it next, if what comes
after it is read after the argument. It may have too many open brackets only if the definition does. -/
def Readable (t : Tables) (arg : Argument) : Prop :=
  ∀ (colon : Token) (call : OpenCall) (outer : List OpenCall) (keys : List Key) (read depth : Nat)
    (kind : ArgKind) (rest : List Char) (d : Definition),
    call.nextKind = some kind → kind.takes arg = true →
    (maxDepth < depth + arg.depth → d.TooDeep) →
    (∀ w ∈ arg.words, isName w = true) → EndsWord rest →
    (∀ read, ReadsTo t ⟨.afterArgument (call.push arg) outer, keys, read, depth⟩ rest d) →
    ReadsTo t ⟨.argument colon call outer, keys, read, depth⟩ (arg.text.toList ++ rest) d

/-- The call with more arguments. -/
def OpenCall.pushAll (call : OpenCall) (args : List Argument) : OpenCall :=
  { call with args := call.args ++ args }

theorem readsTo_arguments {arg : Argument} {args : List Argument}
    (hargs : ∀ a ∈ arg :: args, Readable t a) (colon : Token) (call : OpenCall)
    (outer : List OpenCall) (keys : List Key) (read : Nat) {depth : Nat}
    (hkinds : ∀ i a, (arg :: args)[i]? = some a →
      ∃ kind, call.shape.kindAt (call.args.length + i) = some kind ∧ kind.takes a = true)
    (hdeep : maxDepth < depth + Argument.depths (arg :: args) → d.TooDeep)
    (hwords : ∀ w ∈ Argument.wordsAll (arg :: args), isName w = true) (hend : EndsWord rest)
    (h : ∀ read,
      ReadsTo t ⟨.afterArgument (call.pushAll (arg :: args)) outer, keys, read, depth⟩ rest d) :
    ReadsTo t ⟨.argument colon call outer, keys, read, depth⟩
      (arg.text.toList ++ ((Argument.texts args).toList ++ rest)) d := by
  induction args generalizing arg colon call read with
  | nil =>
    rcases hkinds 0 arg rfl with ⟨kind, hkind, htakes⟩
    rw [Argument.depths] at hdeep
    rw [Argument.wordsAll, List.forall_mem_append] at hwords
    exact hargs arg (by simp) colon call outer keys read depth kind rest d hkind htakes
      (fun harg => hdeep (by omega)) hwords.1 hend h
  | cons next args ih =>
    -- after the first argument a colon leads back to where the induction starts
    rcases hkinds 0 arg rfl with ⟨kind, hkind, htakes⟩
    rw [Argument.depths] at hdeep
    rw [Argument.wordsAll, List.forall_mem_append] at hwords
    refine hargs arg (by simp) colon call outer keys read depth kind _ d hkind htakes
      (fun harg => hdeep (by omega)) hwords.1 (endsWord_texts _ hend) ?_
    intro read
    rw [toList_texts_cons]
    refine readsTo_mark rfl ?_
    intro colon hcolon
    refine ⟨_, .nextArgument hcolon, ?_⟩
    refine ih (fun a ha => hargs a (List.mem_cons_of_mem arg ha)) colon (call.push arg) (read + 1)
      ?_ (fun hargs => hdeep (by omega)) hwords.2 ?_
    · intro i a hi
      have hnext := hkinds (i + 1) a (by simpa using hi)
      simpa [OpenCall.push, Nat.add_assoc, Nat.add_comm 1 i] using hnext
    · intro read
      simpa [OpenCall.push, OpenCall.pushAll] using h read

/-- The arguments of a call whose first colon comes next are read to the end of the call. -/
theorem readsTo_call {callee : Callee} {args : List Argument} {shape : FunctionShape}
    {name : Token} {outer : List OpenCall} {keys : List Key} {read depth : Nat}
    (hopen : ∀ colon : Token, colon.kind = .colon →
      Step t s colon ⟨.argument colon ⟨shape, name, []⟩ outer, keys, read, depth⟩)
    (hbuilt : shape.Builds callee args) (hargs : ∀ a ∈ args, Readable t a)
    (hdeep : maxDepth < depth + Argument.depths args → d.TooDeep)
    (hwords : ∀ w ∈ Argument.wordsAll args, isName w = true) (hend : EndsWord rest)
    (h : ∀ read, ReadsTo t ⟨.afterArgument ⟨shape, name, args⟩ outer, keys, read, depth⟩ rest d) :
    ReadsTo t s ((Argument.texts args).toList ++ rest) d := by
  cases args with
  | nil =>
    -- a function takes at least one argument
    have hcount := hbuilt.count
    have hminimum := shape.one_le_minimum
    unfold Arity.accepts at hcount
    split at hcount <;> simp at hcount <;> omega
  | cons arg args =>
    rw [toList_texts_cons]
    refine readsTo_mark rfl ?_
    intro colon hcolon
    refine ⟨_, hopen colon hcolon, ?_⟩
    refine readsTo_arguments hargs colon ⟨shape, name, []⟩ outer keys read ?_ hdeep hwords hend h
    intro i a hi
    simpa using hbuilt.positions i a hi

/-- The call that has been read is the one that was written. -/
theorem close_eq {callee : Callee} {args : List Argument} {shape : FunctionShape}
    (hfound : t.registry.lookup callee.name = some shape) (hbuilt : shape.Builds callee args)
    (name : Token) : (OpenCall.mk shape name args).close = ⟨callee, args⟩ := by
  have hname : shape.name = callee.name := Table.name_of_lookup hfound
  unfold OpenCall.close FunctionShape.build
  rw [← hbuilt.kind, hname]

theorem readable_of_wellFormed {arg : Argument} (h : arg.WellFormed t) : Readable t arg := by
  induction h with
  | literal value =>
    intro colon call outer keys read depth kind rest d hkind htakes hdeep hwords hend hrest
    refine readsTo_word (hwords value (by simp [Argument.words])) hend ?_
    rintro token hk rfl
    refine ⟨_, .literal hk ?_, hrest (read + 1)⟩
    rw [hkind]
    rintro ⟨⟩
    cases htakes
  | @key entry own =>
    intro colon call outer keys read depth kind rest d hkind htakes hdeep hwords hend hrest
    refine readsTo_word (hwords entry.name (by simp [Argument.words])) hend ?_
    intro token hk hv
    refine ⟨_, .key hk ?_ (hv ▸ own), hrest (read + 1)⟩
    cases kind with
    | key => exact hkind
    | literal | keyOrLiteral => cases htakes
  | @nested callee args shape found built _ ih =>
    -- bracket, name, arguments, bracket: what follows is read with the parent's argument complete
    intro colon call outer keys read depth kind rest d hkind htakes hdeep hwords hend hrest
    rw [Argument.depth] at hdeep
    rw [Argument.words, List.forall_mem_cons] at hwords
    rw [toList_text_nested]
    have hlit : call.nextKind ≠ some .literal := by
      rw [hkind]
      rintro ⟨⟩
      cases htakes
    refine readsTo_bracket hlit (fun hdepth => hdeep (by omega)) ?_
    refine readsTo_word hwords.1 (endsWord_texts args (endsWord_mark rfl rest)) ?_
    intro name hk hv
    refine ⟨_, .nestedName hk, ?_⟩
    refine readsTo_call (fun c hc => .openNested hc (hv ▸ found)) built ih
      (fun hargs => hdeep (by omega)) hwords.2 (endsWord_mark rfl rest) ?_
    intro read
    refine readsTo_mark rfl ?_
    intro closing hclosing
    refine ⟨_, .closeBracket hclosing built.count, ?_⟩
    rw [close_eq found built]
    exact hrest (read + 1)

/-! ## Keys and lines -/

/-- The key has been read when this stage is reached: a comma or the end of input may follow. -/
structure AfterKey (t : Tables) (stage : Stage) (key : Key) : Prop where
  comma : ∀ (comma : Token) (keys : List Key) (read : Nat), comma.kind = .comma →
    Step t ⟨stage, keys, read, 0⟩ comma ⟨.afterComma comma, keys ++ [key], read + 1, 0⟩
  stop : ∀ (keys : List Key) (read : Nat), Finish t ⟨stage, keys, read, 0⟩ (.snoc keys key)

theorem readsTo_key {key : Key} (hkey : key.WellFormed t)
    (hdeep : maxDepth < key.depth → d.TooDeep)
    (hwords : ∀ w ∈ key.words, isName w = true) (hend : EndsWord rest) {stage : Stage}
    (hstage : stage = .start ∨ ∃ comma, stage = .afterComma comma) (keys : List Key) (read : Nat)
    (h : ∀ stage' read, AfterKey t stage' key → ReadsTo t ⟨stage', keys, read, 0⟩ rest d) :
    ReadsTo t ⟨stage, keys, read, 0⟩ (key.text.toList ++ rest) d := by
  cases hkey with
  | @name entry own =>
    refine readsTo_word (hwords entry.name (by simp [Key.words])) hend ?_
    intro token hk hv
    have hfound : t.catalog.lookup token.value = some entry := hv ▸ own
    refine ⟨_, .keyName hstage hk, h _ _ ⟨?_, ?_⟩⟩
    · exact fun comma keys read hcomma => .endName hcomma hfound
    · exact fun keys read => .name hfound
  | @computed call fits =>
    rcases fits with _ | _ | ⟨found, built, hargs⟩
    rename_i shape
    rw [Key.words, Call.asArgument, Argument.words, List.forall_mem_cons] at hwords
    have htext : (Key.text (.computed call)).toList ++ rest =
        call.callee.name.toList ++ ((Argument.texts call.args).toList ++ rest) := by
      simp [Key.text, Call.text]
    rw [htext]
    refine readsTo_word hwords.1 (endsWord_texts call.args hend) ?_
    intro name hk hv
    refine ⟨_, .keyName hstage hk, ?_⟩
    refine readsTo_call (fun c hc => .openKey hc (hv ▸ found)) built
      (fun a ha => readable_of_wellFormed (hargs a ha)) (by simpa [Key.depth] using hdeep)
      hwords.2 hend ?_
    intro read
    refine h _ read ⟨?_, ?_⟩
    · intro comma keys read hcomma
      have hstep : Step t ⟨.afterArgument ⟨shape, name, call.args⟩ [], keys, read, 0⟩ comma _ :=
        .endComputed hcomma built.count
      rwa [close_eq found built] at hstep
    · intro keys read
      have hstop : Finish t ⟨.afterArgument ⟨shape, name, call.args⟩ [], keys, read, 0⟩ _ :=
        .computed built.count
      rwa [close_eq found built] at hstop

theorem readsTo_keys {key : Key} {more keys : List Key} {stage : Stage} (read : Nat)
    (hstage : stage = .start ∨ ∃ comma, stage = .afterComma comma)
    (hd : d.keys = keys ++ key :: more) (hwell : d.WellFormed t)
    (hwords : ∀ w ∈ d.words, isName w = true) :
    ReadsTo t ⟨stage, keys, read, 0⟩ (key.text.toList ++ (Key.texts more).toList) d := by
  have hmem : key ∈ d.keys := by simp [hd]
  have hkeyWords : ∀ w ∈ key.words, isName w = true :=
    fun w hw => hwords w (List.mem_flatMap.2 ⟨key, hmem, hw⟩)
  induction more generalizing key keys stage read with
  | nil =>
    refine readsTo_key (hwell key hmem) (fun hkey => ⟨key, hmem, hkey⟩) hkeyWords endsWord_nil
      hstage keys read ?_
    intro stage' read hafter
    have hsnoc : d = .snoc keys key := by
      rcases d with ⟨all, hne⟩
      cases hd
      rfl
    rw [hsnoc]
    exact readsTo_nil (hafter.stop keys read)
  | cons next more ih =>
    have htexts : (Key.texts (next :: more)).toList =
        ',' :: (next.text.toList ++ (Key.texts more).toList) := by
      simp [Key.texts]
    rw [htexts]
    refine readsTo_key (hwell key hmem) (fun hkey => ⟨key, hmem, hkey⟩) hkeyWords
      (endsWord_mark rfl _) hstage keys read ?_
    intro stage' read hafter
    refine readsTo_mark rfl ?_
    intro comma hcomma
    refine ⟨_, hafter.comma comma keys read hcomma, ?_⟩
    have hnext : next ∈ d.keys := by simp [hd]
    exact ih (read + 1) (Or.inr ⟨comma, rfl⟩) (by simp [hd]) hnext
      (fun w hw => hwords w (List.mem_flatMap.2 ⟨next, hnext, hw⟩))

/-- From the first character on, the text of a definition is read as the definition, or up to a bracket
that is open one too many. -/
theorem readsTo_text (hwell : d.WellFormed t) (hwords : ∀ w ∈ d.words, isName w = true) :
    ReadsTo t {} d.text.toList d := by
  rcases hkeys : d.keys with _ | ⟨key, more⟩
  · exact absurd hkeys d.keys_ne_nil
  · have htext : d.text.toList = key.text.toList ++ (Key.texts more).toList := by
      simp [Definition.text, hkeys]
    rw [htext]
    exact readsTo_keys 0 (Or.inl rfl) hkeys hwell hwords

/-- From the state on, the characters are cut into tokens and read as the definition, wherever the
characters stand. -/
def ReadsAs (t : Tables) (s : State) (cs : List Char) (d : Definition) : Prop :=
  ∀ offset, ∃ tokens s', Tiles offset cs tokens ∧ feed t s tokens = .ok s' ∧ Finish t s' d

/-- Within the limit the text of a definition is read as the definition. -/
theorem readsAs_text (hwell : d.WellFormed t) (hdepth : ∀ key ∈ d.keys, key.depth ≤ maxDepth)
    (hwords : ∀ w ∈ d.words, isName w = true) : ReadsAs t {} d.text.toList d := by
  intro offset
  rcases readsTo_text hwell hwords offset with ⟨tokens, htiles, hout⟩
  cases hfeed : feed t {} tokens with
  | ok s' =>
    rw [hfeed] at hout
    cases hout with
    | read hfinish => exact ⟨tokens, s', htiles, hfeed, hfinish⟩
  | error r =>
    rw [hfeed] at hout
    cases hout with
    | tooDeep hdeep _ =>
      obtain ⟨key, hkey, hlt⟩ := hdeep
      have hle := hdepth key hkey
      omega

/-- **What is written is read again.** The text of a definition that fits the tables, that has at most
64 brackets open at once and whose names and bare words are identifiers is read as the definition
itself. -/
theorem parse_text {t : Tables} {d : Definition} (hwell : d.WellFormed t)
    (hdepth : ∀ key ∈ d.keys, key.depth ≤ 64) (hwords : ∀ w ∈ d.words, isName w = true) :
    parse t d.text = .ok d := by
  rcases readsAs_text hwell hdepth hwords (Text.indent d.text.toList) with
    ⟨tokens, s, htiles, hfeed, hfinish⟩
  have htrim : Text.trim d.text.toList = d.text.toList := trim_of_not_isBlank htiles.not_isBlank
  have hscan : lineTokens d.text = .ok tokens := by
    unfold lineTokens
    rw [htrim, scan_eq_ok_iff.2 htiles]
    rfl
  have hread : readAll t tokens (lineEnd d.text) = .ok d := by
    unfold readAll
    rw [hfeed]
    exact hfinish.finish_eq
  unfold parse
  rw [hscan]
  change (readAll t tokens (lineEnd d.text)).mapError _ = _
  rw [hread]
  rfl

theorem parse_text_nested :
    ∃ d : Definition, d.WellFormed .builtin ∧ (∀ key ∈ d.keys, key.depth ≤ 64) ∧
      (∀ w ∈ d.words, isName w = true) ∧ d.text = "null:[asn:ipsource]:none,ip6ttl" ∧
      parse .builtin d.text = .ok d := by
  let asn : Argument := .nested ⟨.plain, "asn"⟩ [.literal "ipsource"]
  let d : Definition := .snoc [.computed ⟨⟨.plain, "null"⟩, [asn, .literal "none"]⟩]
    (.name ⟨"ip6ttl", "time to live"⟩)
  have hasn : asn.WellFormed .builtin := by
    refine .nested rfl ⟨rfl, rfl, ?_⟩ ?_
    · rintro (_ | i) arg hi <;> cases hi
      exact ⟨.literal, rfl, rfl⟩
    · intro arg harg
      rw [List.mem_singleton.1 harg]
      exact .literal "ipsource"
  have hnull : (Argument.nested ⟨.plain, "null"⟩ [asn, .literal "none"]).WellFormed .builtin := by
    refine .nested rfl ⟨rfl, rfl, ?_⟩ ?_
    · rintro (_ | _ | i) arg hi <;> cases hi
      · exact ⟨.key, rfl, rfl⟩
      · exact ⟨.literal, rfl, rfl⟩
    · intro arg harg
      rcases List.mem_pair.1 harg with rfl | rfl
      · exact hasn
      · exact .literal "none"
  have hwell : d.WellFormed .builtin := by
    intro key hkey
    rcases List.mem_pair.1 hkey with rfl | rfl
    · exact .computed hnull
    · exact .name rfl
  have hdepth : ∀ key ∈ d.keys, key.depth ≤ 64 := by decide
  have hwords : ∀ w ∈ d.words, isName w = true := by decide
  exact ⟨d, hwell, hdepth, hwords, by decide, parse_text hwell hdepth hwords⟩

end Direct

end TrafficKey
