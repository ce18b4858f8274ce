import TrafficKey.Proofs.Grammar
import TrafficKey.Proofs.Places
import TrafficKey.Proofs.Refusals

/-!
# The direct parser follows the grammar

Every token that the direct parser reads is read by the machine of the grammar as well, with the same
calls open, and a token that does not fit is rejected by the machine. So a malformed line is reported
at the first token that leaves the grammar. The two diagnostics that are not about the grammar, a
bracket where a bare argument is asked for and one bracket too many, stand at an opening bracket.
-/

namespace TrafficKey

/-- Commas and colons: what stands between keys and before arguments. -/
def Token.isSeparator (token : Token) : Bool :=
  token.kind = .comma || token.kind = .colon

/-! ## Lines with their end of input -/

namespace Outline

/-- The tokens are a line of the grammar and the end of input after it. -/
def Complete (tokens : List Token) : Prop :=
  ∃ body stop, tokens = body ++ [stop] ∧ stop.kind = .eof ∧ Sentence body

/-- The tokens can be continued to a line of the grammar and the end of input after it. -/
def Begins (tokens : List Token) : Prop :=
  ∃ rest, Complete (tokens ++ rest)

theorem Arguments.kind_ne_eof {args : List Argument} {tokens : List Token}
    (h : Arguments args tokens) : ∀ token ∈ tokens, token.kind ≠ .eof := by
  induction h with
  | nil => simp
  | bare hcolon hname _ ih => simpa [hcolon, hname] using ih
  | nested hcolon hopening hname _ _ hclosing _ ihinner ih =>
    simp only [List.forall_mem_cons, List.forall_mem_append]
    refine ⟨?_, ?_, ?_, ihinner, ?_, ih⟩ <;> simp [hcolon, hopening, hname, hclosing]

theorem IsKey.kind_ne_eof {key : Key} {tokens : List Token} (h : IsKey key tokens) :
    ∀ token ∈ tokens, token.kind ≠ .eof := by
  cases h with
  | bare hname => simp [hname]
  | call hname _ hargs => simpa [hname] using hargs.kind_ne_eof

/-- The end of input is not part of a sentence. -/
theorem Sentence.kind_ne_eof {tokens : List Token} (h : Sentence tokens) :
    ∀ token ∈ tokens, token.kind ≠ .eof := by
  rcases h with ⟨line, hline⟩
  induction hline with
  | one hkey => exact hkey.kind_ne_eof
  | more hkey hcomma _ ih =>
    simp only [List.forall_mem_cons, List.forall_mem_append]
    exact ⟨hkey.kind_ne_eof, by simp [hcomma], ih⟩

theorem Viable.begins {tokens : List Token} (h : Viable tokens) : Begins tokens := by
  rcases h with ⟨rest, hsentence⟩
  exact ⟨rest ++ [Token.stop 0], tokens ++ rest, Token.stop 0, by simp, rfl, hsentence⟩

theorem Begins.viable {tokens : List Token} (h : Begins tokens)
    (hk : ∀ token ∈ tokens, token.kind ≠ .eof) : Viable tokens := by
  rcases h with ⟨rest, body, stop, heq, hstop, hsentence⟩
  rcases List.append_eq_append_iff.1 heq with ⟨mid, rfl, _⟩ | ⟨mid, rfl, hmid⟩
  · exact ⟨mid, hsentence⟩
  · cases mid with
    | nil => exact ⟨[], by simpa using hsentence⟩
    | cons token mid =>
      -- the end of input would be among the tokens
      have htoken : stop = token := (List.cons.inj hmid).1
      exact absurd hstop (hk stop (by simp [htoken]))

/-- Only a sentence is followed by the end of input. -/
theorem Begins.sentence {tokens : List Token} {stop : Token} (h : Begins (tokens ++ [stop]))
    (hk : stop.kind = .eof) : Sentence tokens := by
  rcases h with ⟨rest, body, last, heq, _, hsentence⟩
  rcases List.eq_nil_or_concat' rest with rfl | ⟨rest, end_, rfl⟩
  · rw [List.append_nil] at heq
    exact (List.append_inj' heq rfl).1 ▸ hsentence
  · rw [← List.append_assoc] at heq
    have hbody := (List.append_inj' heq rfl).1
    have hne := hsentence.kind_ne_eof stop (by simp [← hbody])
    exact absurd hk hne

end Outline

namespace Direct

/-! ## Stages and places -/

/-- An open call and its outline: the same name and as many arguments. -/
structure OpenCall.Outlined (t : Tables) (call : OpenCall) (outline : Outline.OpenCall) :
    Prop where
  found : t.registry.lookup call.name.value = some call.shape
  name : outline.name = call.name
  count : outline.args.length = call.args.length

/-- The place of the machine that belongs to a stage. -/
inductive Stage.Outlined (t : Tables) : Stage → Outline.Place → Prop
  | start : Outlined t .start .keyStart
  | afterComma (comma : Token) : Outlined t (.afterComma comma) .keyStart
  | keyName (name : Token) : Outlined t (.keyName name) (.keyName name)
  | argument {colon : Token} {call : OpenCall} {outer : List OpenCall} {oc : Outline.OpenCall}
      {oo : List Outline.OpenCall} (hcall : call.Outlined t oc)
      (houter : List.Forall₂ (OpenCall.Outlined t) outer oo) :
      Outlined t (.argument colon call outer) (.argument oc oo)
  | afterArgument {call : OpenCall} {outer : List OpenCall} {oc : Outline.OpenCall}
      {oo : List Outline.OpenCall} (hcall : call.Outlined t oc)
      (houter : List.Forall₂ (OpenCall.Outlined t) outer oo) :
      Outlined t (.afterArgument call outer) (.afterArgument oc oo)
  | opened {call : OpenCall} {outer : List OpenCall} {oc : Outline.OpenCall}
      {oo : List Outline.OpenCall} (hcall : call.Outlined t oc)
      (houter : List.Forall₂ (OpenCall.Outlined t) outer oo) :
      Outlined t (.opened call outer) (.callStart oc oo)
  | named {name : Token} {call : OpenCall} {outer : List OpenCall} {oc : Outline.OpenCall}
      {oo : List Outline.OpenCall} (hcall : call.Outlined t oc)
      (houter : List.Forall₂ (OpenCall.Outlined t) outer oo) :
      Outlined t (.named name call outer) (.callName name oc oo)

namespace OpenCall.Outlined

variable {t : Tables} {call : OpenCall} {oc : Outline.OpenCall}

theorem start {name : Token} {shape : FunctionShape}
    (h : t.registry.lookup name.value = some shape) :
    OpenCall.Outlined t ⟨shape, name, []⟩ ⟨name, []⟩ :=
  ⟨h, rfl, rfl⟩

theorem push (h : call.Outlined t oc) (arg : Argument) (outline : Outline.Argument) :
    (call.push arg).Outlined t (oc.push outline) :=
  ⟨h.found, h.name, by simp [OpenCall.push, Outline.OpenCall.push, h.count]⟩

end OpenCall.Outlined

variable {t : Tables} {s s' : State} {m : Outline.Machine} {token : Token} {tokens : List Token}
  {r : Rejection} {stop : Int}

/-! ## One token -/

/-- The machine reads every token that the direct parser reads. -/
theorem Step.outlined (h : Step t s token s') (hm : s.stage.Outlined t m.place) :
    ∃ m', m.step token = .ok m' ∧ s'.stage.Outlined t m'.place := by
  rcases m with ⟨place, outlines⟩
  dsimp only at hm
  cases h with
  | keyName hstage hk =>
    rcases hstage with rfl | ⟨comma, rfl⟩ <;> cases hm <;>
      exact ⟨⟨.keyName token, outlines⟩, by simp [Outline.Machine.step, hk], .keyName token⟩
  | @openKey name _ shape _ _ _ hk hl =>
    cases hm
    exact ⟨⟨.argument ⟨name, []⟩ [], outlines⟩, by simp [Outline.Machine.step, hk],
      .argument (.start hl) .nil⟩
  | @endName name _ _ _ _ _ hk hl =>
    cases hm
    exact ⟨⟨.keyStart, outlines ++ [.bare name]⟩, by simp [Outline.Machine.step, hk],
      .afterComma token⟩
  | literal hk hkind =>
    cases hm with
    | argument hcall houter =>
      exact ⟨⟨.afterArgument _ _, outlines⟩, by simp [Outline.Machine.step, hk],
        .afterArgument (hcall.push _ (.bare token)) houter⟩
  | key hk hkind hl =>
    cases hm with
    | argument hcall houter =>
      exact ⟨⟨.afterArgument _ _, outlines⟩, by simp [Outline.Machine.step, hk],
        .afterArgument (hcall.push _ (.bare token)) houter⟩
  | openBracket hk hkind hdepth =>
    cases hm with
    | argument hcall houter =>
      exact ⟨⟨.callStart _ _, outlines⟩, by simp [Outline.Machine.step, hk], .opened hcall houter⟩
  | nextArgument hk =>
    cases hm with
    | afterArgument hcall houter =>
      exact ⟨⟨.argument _ _, outlines⟩, by simp [Outline.Machine.step, hk],
        .argument hcall houter⟩
  | endComputed hk ha =>
    cases hm with
    | @afterArgument _ _ oc _ hcall houter =>
      cases houter
      exact ⟨⟨.keyStart, outlines ++ [.call oc.name oc.args]⟩,
        by simp [Outline.Machine.step, hk], .afterComma token⟩
  | closeBracket hk ha =>
    cases hm with
    | @afterArgument _ _ oc _ hcall houter =>
      cases houter with
      | cons hparent hrest =>
        exact ⟨⟨.afterArgument _ _, outlines⟩, by simp [Outline.Machine.step, hk],
          .afterArgument (hparent.push _ (.nested oc.name oc.args)) hrest⟩
  | nestedName hk =>
    cases hm with
    | opened hcall houter =>
      exact ⟨⟨.callName token _ _, outlines⟩, by simp [Outline.Machine.step, hk],
        .named hcall houter⟩
  | @openNested name _ shape _ _ _ _ _ hk hl =>
    cases hm with
    | named hcall houter =>
      exact ⟨⟨.argument ⟨name, []⟩ _, outlines⟩, by simp [Outline.Machine.step, hk],
        .argument (.start hl) (.cons hcall houter)⟩

/-- The machine rejects every token that does not fit; a bracket in place of a bare argument would fit
the grammar. -/
theorem Misfit.outlined {e : Expectation} (h : Misfit t s.stage token e)
    (he : e ≠ .literalArgument) (hm : s.stage.Outlined t m.place) :
    ∃ u, m.step token = .error u := by
  rcases s with ⟨stage, keys, read, depth⟩
  rcases m with ⟨place, outlines⟩
  dsimp only at h hm
  cases h with
  | keyStart hstage hk =>
    rcases hstage with rfl | ⟨comma, rfl⟩ <;> cases hm <;>
      cases hkind : token.kind <;> simp_all [Outline.Machine.step]
  | afterName hl hcolon hcomma =>
    cases hm
    cases hkind : token.kind <;> simp_all [Outline.Machine.step]
  | literalArgument hk hkind => exact absurd rfl he
  | argument hname hopen =>
    cases hm
    cases hkind : token.kind <;> simp_all [Outline.Machine.step]
  | afterCall ha hcolon hcomma =>
    cases hm with
    | afterArgument hcall houter =>
      cases houter
      cases hkind : token.kind <;> simp_all [Outline.Machine.step]
  | unclosed ha hcolon hclose =>
    cases hm with
    | afterArgument hcall houter =>
      cases houter
      cases hkind : token.kind <;> simp_all [Outline.Machine.step]
  | functionName hk =>
    cases hm
    cases hkind : token.kind <;> simp_all [Outline.Machine.step]
  | colonAfterName hk =>
    cases hm
    cases hkind : token.kind <;> simp_all [Outline.Machine.step]

/-- The machine rejects the end of input where a malformed line ends. -/
theorem Shortfall.outlined {offset : Int} {e : Expectation} {found : Option String}
    (h : Shortfall t stop s r) (hr : r.diagnostic = .malformed offset e found)
    (hm : s.stage.Outlined t m.place) (last : Token) : ∃ u, m.finish last = .error u := by
  rcases m with ⟨place, outlines⟩
  dsimp only at hm
  cases h with
  | empty | unknownName hl | arity ha => cases hr
  | afterComma | afterColon | functionName | colonAfterName =>
    cases hm
    exact ⟨_, rfl⟩
  | unclosed ha =>
    cases hm with
    | afterArgument hcall houter =>
      cases houter
      exact ⟨_, rfl⟩

/-! ## The separator that was read last -/

/-- The separator that the stage waits behind, if it does. -/
def Stage.separator? : Stage → Option Token
  | .afterComma comma => some comma
  | .argument colon _ _ => some colon
  | _ => none

theorem Step.separator?_eq (h : Step t s token s') :
    s'.stage.separator? = (some token).filter Token.isSeparator := by
  cases h <;> simp_all [Stage.separator?, Token.isSeparator, Option.filter]

/-- The token that is blamed for a token that leaves the grammar: the end of input is blamed on the
separator right before it. -/
def blamed (before : List Token) (offending : Token) : Token :=
  if offending.kind = .eof then (before.getLast?.filter Token.isSeparator).getD offending
  else offending

theorem Shortfall.offset_eq {offset : Int} {e : Expectation} {found : Option String}
    (h : Shortfall t stop s r) (hr : r.diagnostic = .malformed offset e found) :
    offset = (s.stage.separator?.getD (Token.stop stop)).offset ∧ found = none := by
  cases h with
  | empty | unknownName hl | arity ha => cases hr
  | afterComma | afterColon | functionName | colonAfterName | unclosed ha =>
    cases hr
    exact ⟨rfl, rfl⟩

/-! ## What has been read -/

/-- After the same tokens the machine stands at the place of the direct parser's stage. -/
theorem outlined_of_feed (h : feed t {} tokens = .ok s) :
    ∃ m, Outline.Machine.feed {} tokens = .ok m ∧ s.stage.Outlined t m.place := by
  have hstep : ∀ (done : List Token) (s : State) (token : Token) (s' : State),
      (∃ m, Outline.Machine.feed {} done = .ok m ∧ s.stage.Outlined t m.place) →
      step t s token = .ok s' →
      ∃ m, Outline.Machine.feed {} (done ++ [token]) = .ok m ∧ s'.stage.Outlined t m.place := by
    rintro done s token s' ⟨m, hm, hplace⟩ hstep
    rcases (Step.of_step_eq hstep).outlined hplace with ⟨m', hm', hplace'⟩
    refine ⟨m', ?_, hplace'⟩
    rw [Outline.Machine.feed_append hm, Outline.Machine.feed_cons hm', Outline.Machine.feed_nil]
  exact foldlM_invariant hstep ⟨{}, rfl, .start⟩ h

theorem separator?_of_feed (h : feed t {} tokens = .ok s) :
    s.stage.separator? = tokens.getLast?.filter Token.isSeparator := by
  rcases feed_last h with ⟨rfl, rfl⟩ | ⟨before, token, m, rfl, _, hstep⟩
  · rfl
  · rw [List.getLast?_concat]
    exact hstep.separator?_eq

/-! ## Where a malformed line is reported -/

theorem begins_of_feed (h : feed t {} tokens = .ok s) : Outline.Begins tokens := by
  rcases outlined_of_feed h with ⟨m, hm, _⟩
  exact (Outline.Machine.reads_of_feed hm).viable.begins

/-- A token that does not fit leaves the grammar. -/
theorem Misfit.not_begins {e : Expectation} (h : Misfit t s.stage token e)
    (he : e ≠ .literalArgument) (hfeed : feed t {} tokens = .ok s)
    (hk : ∀ x ∈ tokens ++ [token], x.kind ≠ .eof) : ¬ Outline.Begins (tokens ++ [token]) := by
  intro hbegins
  rcases outlined_of_feed hfeed with ⟨m, hm, hplace⟩
  rcases h.outlined he hplace with ⟨u, hu⟩
  have hstep := Outline.engine_conforms.step_ok tokens m token hm (hk token (by simp))
  rcases hstep.2 (hbegins.viable hk) with ⟨m', hm'⟩
  have hcontra := hu.symm.trans hm'
  cases hcontra

/-- The end of input leaves the grammar where a malformed line ends. -/
theorem Shortfall.not_begins {offset : Int} {e : Expectation} {found : Option String}
    (h : Shortfall t stop s r) (hr : r.diagnostic = .malformed offset e found)
    (hfeed : feed t {} tokens = .ok s) : ¬ Outline.Begins (tokens ++ [Token.stop stop]) := by
  intro hbegins
  rcases outlined_of_feed hfeed with ⟨m, hm, hplace⟩
  rcases h.outlined hr hplace (Token.stop stop) with ⟨u, hu⟩
  have hfinish := Outline.engine_conforms.finish_ok tokens m (Token.stop stop) hm rfl
  rcases hfinish.2 (hbegins.sentence rfl) with ⟨outline, houtline⟩
  have hcontra := hu.symm.trans houtline
  cases hcontra

theorem readAll_malformed {offset : Int} {e : Expectation} {found : Option String}
    (hk : ∀ token ∈ tokens, token.kind ≠ .eof) (h : readAll t tokens stop = .error r)
    (hr : r.diagnostic = .malformed offset e found) (hliteral : e ≠ .literalArgument)
    (hnesting : e ≠ .lessNesting) :
    ∃ before offending after, tokens ++ [Token.stop stop] = before ++ offending :: after ∧
      Outline.Begins before ∧ ¬ Outline.Begins (before ++ [offending]) ∧
      offset = (blamed before offending).offset := by
  rcases readAll_eq_error_iff.1 h with
    ⟨before, token, after, s, rfl, hfeed, hrefused⟩ | ⟨s, hfeed, hshort⟩
  · have hkind : ∀ x ∈ before ++ [token], x.kind ≠ .eof := by
      intro x hx
      refine hk x ?_
      simp only [List.mem_append, List.mem_cons] at hx ⊢
      tauto
    refine ⟨before, token, after ++ [Token.stop stop], by simp, begins_of_feed hfeed, ?_⟩
    cases hrefused with
    | misfit hmisfit =>
      cases hr
      refine ⟨hmisfit.not_begins hliteral hfeed hkind, ?_⟩
      unfold blamed
      rw [if_neg (hk token (by simp))]
    | tooDeep _ _ _ =>
      cases hr
      exact absurd rfl hnesting
    | unknownFunction _ _ _ | unknownName _ _ | unknownArgument _ _ _ | arity _ _ => cases hr
  · refine ⟨tokens, Token.stop stop, [], rfl, begins_of_feed hfeed, hshort.not_begins hr hfeed, ?_⟩
    rw [(hshort.offset_eq hr).1, separator?_of_feed hfeed]
    rfl

theorem Misfit.kind_eq_lbracket {stage : Stage} {e : Expectation} (h : Misfit t stage token e)
    (he : e = .literalArgument ∨ e = .lessNesting) : token.kind = .lbracket := by
  have hend : ¬ (keyEndFor token = .literalArgument ∨ keyEndFor token = .lessNesting) := by
    unfold keyEndFor
    split <;> simp
  cases h with
  | literalArgument hk _ => exact hk
  | afterName _ _ _ | afterCall _ _ _ => exact absurd he hend
  | keyStart _ _ | argument _ _ | unclosed _ _ _ | functionName _ | colonAfterName _ =>
    rcases he with he | he <;> cases he

/-- What is not about the grammar is reported at an opening bracket. -/
theorem readAll_malformed_bracket {offset : Int} {e : Expectation} {found : Option String}
    (h : readAll t tokens stop = .error r) (hr : r.diagnostic = .malformed offset e found)
    (he : e = .literalArgument ∨ e = .lessNesting) :
    ∃ before bracket after, tokens = before ++ bracket :: after ∧ bracket.kind = .lbracket ∧
      offset = bracket.offset := by
  rcases readAll_eq_error_iff.1 h with
    ⟨before, token, after, s, htokens, _, hrefused⟩ | ⟨s, _, hshort⟩
  · refine ⟨before, token, after, htokens, ?_⟩
    cases hrefused with
    | misfit hmisfit =>
      cases hr
      exact ⟨hmisfit.kind_eq_lbracket he, rfl⟩
    | tooDeep hk _ _ =>
      cases hr
      exact ⟨hk, rfl⟩
    | unknownFunction _ _ _ | unknownName _ _ | unknownArgument _ _ _ | arity _ _ => cases hr
  · cases hshort with
    | afterComma | afterColon | functionName | colonAfterName | unclosed _ =>
      cases hr
      rcases he with he | he <;> cases he
    | empty | unknownName _ | arity _ => cases hr

/-- **A malformed line is reported at the first token that leaves the grammar.** The tokens before it,
the end of input counted as a token, begin a line of the grammar, and with it they do not; the offset
is its own, or that of the separator right before the end of input. Apart from these there are only
the diagnostics of a bracket that the tables or the nesting do not allow, so a line of the grammar is
called malformed at an opening bracket only. -/
theorem parse_malformed_leaves_grammar {t : Tables} {line : String} {tokens : List Token}
    (hlex : tokenize line = .ok tokens) :
    (∀ offset e found, parse t line = .error (.malformed offset e found) →
      e ≠ .literalArgument → e ≠ .lessNesting →
      ∃ before offending after, tokens = before ++ offending :: after ∧
        Outline.Begins before ∧ ¬ Outline.Begins (before ++ [offending]) ∧
        offset = (blamed before offending).offset) ∧
      (Outline.Complete tokens →
        ∀ offset e found, parse t line = .error (.malformed offset e found) →
          ∃ n : Nat, offset = n ∧ StandsAt line.toList n ['[']) := by
  rcases bind_eq_ok.1 hlex with ⟨body, hbody, htokens⟩
  cases htokens
  have hk : ∀ token ∈ body, token.kind ≠ .eof := by
    intro token htoken hkind
    have hvalue := (tiles_of_lineTokens hbody).matches_value token htoken
    rw [hkind] at hvalue
    exact hvalue
  -- the line was cut, so it is rejected because of its tokens
  have hread : ∀ d, parse t line = .error d →
      ∃ r, readAll t body (lineEnd line) = .error r ∧ r.diagnostic = d := by
    intro d hd
    rw [parse_of_lineTokens hbody] at hd
    exact mapError_eq_error_iff.1 hd
  have hleaves : ∀ offset e found, parse t line = .error (.malformed offset e found) →
      e ≠ .literalArgument → e ≠ .lessNesting →
      ∃ before offending after, body ++ [Token.stop (lineEnd line)] = before ++ offending :: after ∧
        Outline.Begins before ∧ ¬ Outline.Begins (before ++ [offending]) ∧
        offset = (blamed before offending).offset := by
    intro offset e found hd hliteral hnesting
    rcases hread _ hd with ⟨r, hr, hdiag⟩
    exact readAll_malformed hk hr hdiag hliteral hnesting
  refine ⟨hleaves, ?_⟩
  intro hcomplete offset e found hd
  have he : e = .literalArgument ∨ e = .lessNesting := by
    by_contra hother
    rw [not_or] at hother
    rcases hleaves offset e found hd hother.1 hother.2 with
      ⟨before, offending, after, hsplit, _, hnot, _⟩
    refine hnot ⟨after, ?_⟩
    rw [List.append_assoc, List.singleton_append, ← hsplit]
    exact hcomplete
  rcases hread _ hd with ⟨r, hr, hdiag⟩
  rcases readAll_malformed_bracket hr hdiag he with ⟨before, bracket, after, rfl, hopen, rfl⟩
  exact standsAt_of_mark hbody ['['] (by rw [hopen]; exact fun _ hm => hm)

/-- A line that ends in a colon, and a line of the grammar with a bracket in place of a bare
argument. -/
theorem parse_malformed_leaves_grammar_examples :
    (∃ tokens, tokenize " or:ipsource: " = .ok tokens ∧
      parse .builtin " or:ipsource: " = .error (.malformed 12 .argumentAfterColon none) ∧
      ∃ before offending after, tokens = before ++ offending :: after ∧
        Outline.Begins before ∧ ¬ Outline.Begins (before ++ [offending]) ∧
        12 = (blamed before offending).offset) ∧
      ∃ tokens, tokenize "asn:[asn:x]" = .ok tokens ∧ Outline.Complete tokens ∧
        parse .builtin "asn:[asn:x]" = .error (.malformed 4 .literalArgument (some "[")) ∧
        ∃ n : Nat, (4 : Int) = n ∧ StandsAt "asn:[asn:x]".toList n ['['] := by
  constructor
  · have hlex : tokenize " or:ipsource: " = .ok [⟨.identifier, "or", 1⟩, ⟨.colon, ":", 3⟩,
        ⟨.identifier, "ipsource", 4⟩, ⟨.colon, ":", 12⟩, ⟨.eof, "", 13⟩] := by
      cbv
    have h : parse .builtin " or:ipsource: " =
        .error (.malformed 12 .argumentAfterColon none) := by
      cbv
    exact ⟨_, hlex, h,
      (parse_malformed_leaves_grammar hlex).1 _ _ _ h (by decide) (by decide)⟩
  · have hlex : tokenize "asn:[asn:x]" = .ok [⟨.identifier, "asn", 0⟩, ⟨.colon, ":", 3⟩,
        ⟨.lbracket, "[", 4⟩, ⟨.identifier, "asn", 5⟩, ⟨.colon, ":", 8⟩, ⟨.identifier, "x", 9⟩,
        ⟨.rbracket, "]", 10⟩, ⟨.eof, "", 11⟩] := by
      cbv
    have h : parse .builtin "asn:[asn:x]" =
        .error (.malformed 4 .literalArgument (some "[")) := by
      cbv
    have hcomplete : Outline.Complete [⟨.identifier, "asn", 0⟩, ⟨.colon, ":", 3⟩,
        ⟨.lbracket, "[", 4⟩, ⟨.identifier, "asn", 5⟩, ⟨.colon, ":", 8⟩, ⟨.identifier, "x", 9⟩,
        ⟨.rbracket, "]", 10⟩, ⟨.eof, "", 11⟩] := by
      have hinner : Outline.Arguments [.bare ⟨.identifier, "x", 9⟩]
          [⟨.colon, ":", 8⟩, ⟨.identifier, "x", 9⟩] := .bare rfl rfl .nil
      have hargs : Outline.Arguments
          [.nested ⟨.identifier, "asn", 5⟩ [.bare ⟨.identifier, "x", 9⟩]]
          [⟨.colon, ":", 3⟩, ⟨.lbracket, "[", 4⟩, ⟨.identifier, "asn", 5⟩, ⟨.colon, ":", 8⟩,
            ⟨.identifier, "x", 9⟩, ⟨.rbracket, "]", 10⟩] :=
        .nested rfl rfl rfl (by simp) hinner rfl .nil
      exact ⟨_, ⟨.eof, "", 11⟩, rfl, rfl, _, .one (.call rfl (by simp) hargs)⟩
    exact ⟨_, hlex, hcomplete, h, (parse_malformed_leaves_grammar hlex).2 hcomplete _ _ _ h⟩

end Direct

end TrafficKey
