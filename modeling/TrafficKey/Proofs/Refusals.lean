import TrafficKey.Proofs.Runs
import TrafficKey.Proofs.Steps

/-!
# What a token can be refused for

The counterpart of the list of steps: everything that the direct parser can find wrong with a token,
and with the end of input. A line is rejected at the first token that is refused. What the diagnostics
of a line have in common is proved by going through these lists.
-/

namespace TrafficKey.Direct

/-- What should have followed a whole key in place of the token. -/
def keyEndFor (token : Token) : Expectation :=
  if token.kind = .rbracket then .keyEndUnmatched else .keyEnd

/-- A token that cannot stand at this stage, whatever the names are. -/
inductive Misfit (t : Tables) : Stage → Token → Expectation → Prop
  /-- no name where a key starts -/
  | keyStart {stage : Stage} {token : Token}
      (hstage : stage = .start ∨ ∃ comma, stage = .afterComma comma)
      (hk : token.kind ≠ .identifier) : Misfit t stage token .keyOrFunction
  /-- neither a colon nor a comma after a key name -/
  | afterName {name token : Token} {entry : KeyName}
      (hl : t.catalog.lookup name.value = some entry) (hcolon : token.kind ≠ .colon)
      (hcomma : token.kind ≠ .comma) : Misfit t (.keyName name) token (keyEndFor token)
  /-- a bracket where a bare argument is asked for -/
  | literalArgument {colon token : Token} {call : OpenCall} {outer : List OpenCall}
      (hk : token.kind = .lbracket) (hkind : call.nextKind = some .literal) :
      Misfit t (.argument colon call outer) token .literalArgument
  /-- neither a name nor a bracket after a colon -/
  | argument {colon token : Token} {call : OpenCall} {outer : List OpenCall}
      (hname : token.kind ≠ .identifier) (hopen : token.kind ≠ .lbracket) :
      Misfit t (.argument colon call outer) token .argument
  /-- neither a colon nor a comma after an argument of a computed key -/
  | afterCall {token : Token} {call : OpenCall}
      (ha : call.shape.arity.accepts call.args.length = true) (hcolon : token.kind ≠ .colon)
      (hcomma : token.kind ≠ .comma) : Misfit t (.afterArgument call []) token (keyEndFor token)
  /-- neither a colon nor a closing bracket after an argument of a nested call -/
  | unclosed {token : Token} {call parent : OpenCall} {outer : List OpenCall}
      (ha : call.shape.arity.accepts call.args.length = true) (hcolon : token.kind ≠ .colon)
      (hclose : token.kind ≠ .rbracket) :
      Misfit t (.afterArgument call (parent :: outer)) token .closingBracket
  /-- no name after an opening bracket -/
  | functionName {token : Token} {call : OpenCall} {outer : List OpenCall}
      (hk : token.kind ≠ .identifier) : Misfit t (.opened call outer) token .functionName
  /-- no colon after the name of a nested call -/
  | colonAfterName {name token : Token} {call : OpenCall} {outer : List OpenCall}
      (hk : token.kind ≠ .colon) : Misfit t (.named name call outer) token .colonAfterName

/-- One refused token. -/
inductive Refusal (t : Tables) : State → Token → Rejection → Prop
  /-- the token does not fit -/
  | misfit {stage : Stage} {keys : List Key} {read depth : Nat} {token : Token} {e : Expectation}
      (h : Misfit t stage token e) :
      Refusal t ⟨stage, keys, read, depth⟩ token
        ⟨.malformed token.offset e (some token.value), read, depth⟩
  /-- one open bracket too many, which counts as read -/
  | tooDeep {colon token : Token} {call : OpenCall} {outer : List OpenCall} {keys : List Key}
      {read depth : Nat} (hk : token.kind = .lbracket) (hkind : call.nextKind ≠ some .literal)
      (hdepth : maxDepth ≤ depth) :
      Refusal t ⟨.argument colon call outer, keys, read, depth⟩ token
        ⟨.malformed token.offset .lessNesting none, read + 1, depth⟩
  /-- a colon after a name that the registry does not have -/
  | unknownFunction {stage : Stage} {name token : Token} {keys : List Key} {read depth : Nat}
      (hstage : stage = .keyName name ∨ ∃ call outer, stage = .named name call outer)
      (hk : token.kind = .colon) (hl : t.registry.lookup name.value = none) :
      Refusal t ⟨stage, keys, read, depth⟩ token
        ⟨t.functionDiagnostic name.value name.offset, read, depth⟩
  /-- anything but a colon after a name that the catalog does not have -/
  | unknownName {name token : Token} {keys : List Key} {read depth : Nat}
      (hk : token.kind ≠ .colon) (hl : t.catalog.lookup name.value = none) :
      Refusal t ⟨.keyName name, keys, read, depth⟩ token
        ⟨t.nameDiagnostic name.value name.offset, read, depth⟩
  /-- an argument that should be a key name and that the catalog does not have -/
  | unknownArgument {colon token : Token} {call : OpenCall} {outer : List OpenCall}
      {keys : List Key} {read depth : Nat} (hk : token.kind = .identifier)
      (hkind : call.nextKind = some .key) (hl : t.catalog.lookup token.value = none) :
      Refusal t ⟨.argument colon call outer, keys, read, depth⟩ token
        ⟨t.nameDiagnostic token.value token.offset, read + 1, depth⟩
  /-- anything but a colon after too few or too many arguments -/
  | arity {token : Token} {call : OpenCall} {outer : List OpenCall} {keys : List Key}
      {read depth : Nat} (hk : token.kind ≠ .colon)
      (ha : call.shape.arity.accepts call.args.length = false) :
      Refusal t ⟨.afterArgument call outer, keys, read, depth⟩ token
        ⟨call.arityDiagnostic, read, depth⟩

variable {t : Tables} {s : State} {token : Token} {r : Rejection}

theorem endKey_eq_unexpected (s : State) (key : Key) (h : token.kind ≠ .comma) :
    endKey s key token = s.unexpected (keyEndFor token) token := by
  unfold endKey keyEndFor
  cases hk : token.kind <;> simp_all

theorem Misfit.step_eq {e : Expectation} (h : Misfit t s.stage token e) :
    step t s token = s.unexpected e token := by
  rcases s with ⟨stage, keys, read, depth⟩
  cases h with
  | keyStart hstage hk => rcases hstage with rfl | ⟨comma, rfl⟩ <;> simp [step, hk]
  | afterName hl hcolon hcomma => simp [step, hcolon, hl, endKey_eq_unexpected _ _ hcomma]
  | literalArgument hk hkind => simp [step, readArgument, hk, hkind]
  | argument hname hopen => simp [step, readArgument]
  | afterCall ha hcolon hcomma => simp [step, hcolon, endCall, ha, endKey_eq_unexpected _ _ hcomma]
  | unclosed ha hcolon hclose => simp [step, hcolon, endCall, ha, hclose]
  | functionName hk => simp [step, hk]
  | colonAfterName hk => simp [step, hk]

theorem Refusal.step_eq (h : Refusal t s token r) : step t s token = .error r := by
  cases h with
  | misfit h => exact h.step_eq
  | tooDeep hk hkind hdepth => simp [step, readArgument, hk, hkind, hdepth]
  | unknownFunction hstage hk hl =>
    rcases hstage with rfl | ⟨call, outer, rfl⟩ <;> simp [step, hk, openCall, hl, State.reject]
  | unknownName hk hl => simp [step, hk, hl, State.reject]
  | unknownArgument hk hkind hl => simp [step, readArgument, hk, hkind, hl]
  | arity hk ha => simp [step, hk, endCall, ha, State.reject]

theorem Refusal.of_misfit {e : Expectation} (h : Misfit t s.stage token e)
    (hr : s.unexpected e token = (.error r : Except Rejection State)) : Refusal t s token r := by
  cases hr
  exact .misfit h

theorem Refusal.of_keyStart (hstage : s.stage = .start ∨ ∃ comma, s.stage = .afterComma comma)
    (h : step t s token = .error r) : Refusal t s token r := by
  by_cases hk : token.kind = .identifier
  · rw [(Step.keyName hstage hk).step_eq] at h
    cases h
  · have hmis : Misfit t s.stage token .keyOrFunction := .keyStart hstage hk
    exact .of_misfit hmis (hmis.step_eq.symm.trans h)

theorem Refusal.of_step_eq (h : step t s token = .error r) : Refusal t s token r := by
  rcases s with ⟨stage, keys, read, depth⟩
  cases stage with
  | start => exact .of_keyStart (Or.inl rfl) h
  | afterComma comma => exact .of_keyStart (Or.inr ⟨comma, rfl⟩) h
  | keyName name =>
    by_cases hk : token.kind = .colon
    · simp only [step, hk, if_true, openCall] at h
      split at h
      · rename_i hl
        cases h
        exact .unknownFunction (Or.inl rfl) hk hl
      · cases h
    · -- the name is looked up before the token is looked at
      cases hl : t.catalog.lookup name.value with
      | none =>
        simp only [step, hk, if_false, hl] at h
        cases h
        exact .unknownName hk hl
      | some entry =>
        by_cases hcomma : token.kind = .comma
        · rw [(Step.endName hcomma hl).step_eq] at h
          cases h
        · have hmis : Misfit t (.keyName name) token _ := .afterName hl hk hcomma
          exact .of_misfit hmis (hmis.step_eq.symm.trans h)
  | argument colon call outer =>
    by_cases hopen : token.kind = .lbracket
    · by_cases hlit : call.nextKind = some .literal
      · have hmis : Misfit t (.argument colon call outer) token _ := .literalArgument hopen hlit
        exact .of_misfit hmis (hmis.step_eq.symm.trans h)
      · by_cases hdeep : maxDepth ≤ depth
        · simp only [step, readArgument, hopen, hlit, if_false, hdeep, if_true] at h
          cases h
          exact .tooDeep hopen hlit hdeep
        · rw [(Step.openBracket hopen hlit (Nat.lt_of_not_le hdeep)).step_eq] at h
          cases h
    · by_cases hname : token.kind = .identifier
      · by_cases hkey : call.nextKind = some .key
        · cases hl : t.catalog.lookup token.value with
          | none =>
            simp only [step, readArgument, hname, hkey, if_true, hl] at h
            cases h
            exact .unknownArgument hname hkey hl
          | some entry =>
            rw [(Step.key hname hkey hl).step_eq] at h
            cases h
        · rw [(Step.literal hname hkey).step_eq] at h
          cases h
      · have hmis : Misfit t (.argument colon call outer) token _ := .argument hname hopen
        exact .of_misfit hmis (hmis.step_eq.symm.trans h)
  | afterArgument call outer =>
    by_cases hk : token.kind = .colon
    · rw [(Step.nextArgument hk).step_eq] at h
      cases h
    · -- the argument count is looked at before the token
      cases ha : call.shape.arity.accepts call.args.length with
      | false =>
        simp only [step, hk, if_false, endCall, ha] at h
        cases h
        exact .arity hk ha
      | true =>
        cases outer with
        | nil =>
          by_cases hcomma : token.kind = .comma
          · rw [(Step.endComputed hcomma ha).step_eq] at h
            cases h
          · have hmis : Misfit t (.afterArgument call []) token _ := .afterCall ha hk hcomma
            exact .of_misfit hmis (hmis.step_eq.symm.trans h)
        | cons parent outer =>
          by_cases hclose : token.kind = .rbracket
          · rw [(Step.closeBracket hclose ha).step_eq] at h
            cases h
          · have hmis : Misfit t (.afterArgument call (parent :: outer)) token _ :=
              .unclosed ha hk hclose
            exact .of_misfit hmis (hmis.step_eq.symm.trans h)
  | opened call outer =>
    by_cases hk : token.kind = .identifier
    · simp only [step, hk, if_true] at h
      cases h
    · have hmis : Misfit t (.opened call outer) token _ := .functionName hk
      exact .of_misfit hmis (hmis.step_eq.symm.trans h)
  | named name call outer =>
    by_cases hk : token.kind = .colon
    · simp only [step, hk, if_true, openCall] at h
      split at h
      · rename_i hl
        cases h
        exact .unknownFunction (Or.inr ⟨call, outer, rfl⟩) hk hl
      · cases h
    · have hmis : Misfit t (.named name call outer) token _ := .colonAfterName hk
      exact .of_misfit hmis (hmis.step_eq.symm.trans h)

/-! ## The end of input -/

/-- The end of input at `stop` comes too early, or after something that the tables do not allow. -/
inductive Shortfall (t : Tables) (stop : Int) : State → Rejection → Prop
  /-- nothing was read -/
  | empty {keys : List Key} {read depth : Nat} :
      Shortfall t stop ⟨.start, keys, read, depth⟩ ⟨.emptyDefinition, read, depth⟩
  /-- a comma was read last -/
  | afterComma {comma : Token} {keys : List Key} {read depth : Nat} :
      Shortfall t stop ⟨.afterComma comma, keys, read, depth⟩
        ⟨.malformed comma.offset .keyAfterComma none, read, depth⟩
  /-- a colon was read last -/
  | afterColon {colon : Token} {call : OpenCall} {outer : List OpenCall} {keys : List Key}
      {read depth : Nat} :
      Shortfall t stop ⟨.argument colon call outer, keys, read, depth⟩
        ⟨.malformed colon.offset .argumentAfterColon none, read, depth⟩
  /-- a bracket is open after an argument -/
  | unclosed {call parent : OpenCall} {outer : List OpenCall} {keys : List Key} {read depth : Nat}
      (ha : call.shape.arity.accepts call.args.length = true) :
      Shortfall t stop ⟨.afterArgument call (parent :: outer), keys, read, depth⟩
        ⟨.malformed stop .closingBracket none, read, depth⟩
  /-- a bracket was read last -/
  | functionName {call : OpenCall} {outer : List OpenCall} {keys : List Key} {read depth : Nat} :
      Shortfall t stop ⟨.opened call outer, keys, read, depth⟩
        ⟨.malformed stop .functionName none, read, depth⟩
  /-- the name of a nested call was read last -/
  | colonAfterName {name : Token} {call : OpenCall} {outer : List OpenCall} {keys : List Key}
      {read depth : Nat} :
      Shortfall t stop ⟨.named name call outer, keys, read, depth⟩
        ⟨.malformed stop .colonAfterName none, read, depth⟩
  /-- the last name is not in the catalog -/
  | unknownName {name : Token} {keys : List Key} {read depth : Nat}
      (hl : t.catalog.lookup name.value = none) :
      Shortfall t stop ⟨.keyName name, keys, read, depth⟩
        ⟨t.nameDiagnostic name.value name.offset, read, depth⟩
  /-- the last call has too few or too many arguments -/
  | arity {call : OpenCall} {outer : List OpenCall} {keys : List Key} {read depth : Nat}
      (ha : call.shape.arity.accepts call.args.length = false) :
      Shortfall t stop ⟨.afterArgument call outer, keys, read, depth⟩
        ⟨call.arityDiagnostic, read, depth⟩

variable {stop : Int}

theorem Shortfall.finish_eq (h : Shortfall t stop s r) : finish t s stop = .error r := by
  cases h with
  | empty | afterComma | afterColon | functionName | colonAfterName => rfl
  | unclosed ha => simp [finish, ha, State.reject]
  | unknownName hl => simp [finish, hl, State.reject]
  | arity ha => simp [finish, ha, State.reject]

theorem Shortfall.of_finish_eq (h : finish t s stop = .error r) : Shortfall t stop s r := by
  rcases s with ⟨stage, keys, read, depth⟩
  cases stage with
  | start =>
    cases h
    exact .empty
  | afterComma comma =>
    cases h
    exact .afterComma
  | keyName name =>
    cases hl : t.catalog.lookup name.value with
    | none =>
      simp only [finish, hl] at h
      cases h
      exact .unknownName hl
    | some entry =>
      rw [(Finish.name hl).finish_eq] at h
      cases h
  | argument colon call outer =>
    cases h
    exact .afterColon
  | afterArgument call outer =>
    cases ha : call.shape.arity.accepts call.args.length with
    | false =>
      simp only [finish, ha] at h
      cases h
      exact .arity ha
    | true =>
      cases outer with
      | nil =>
        rw [(Finish.computed ha).finish_eq] at h
        cases h
      | cons parent outer =>
        simp only [finish, ha, if_true] at h
        cases h
        exact .unclosed ha
  | opened call outer =>
    cases h
    exact .functionName
  | named name call outer =>
    cases h
    exact .colonAfterName

/-! ## A whole line -/

theorem feed_snoc {s' : State} {before : List Token} :
    feed t s (before ++ [token]) = .ok s' ↔
      ∃ m, feed t s before = .ok m ∧ Step t m token s' := by
  unfold feed
  rw [foldlM_append_eq_ok]
  constructor
  · rintro ⟨m, hbefore, hlast⟩
    rw [List.foldlM_cons, bind_eq_ok] at hlast
    obtain ⟨s'', hstep, hs⟩ := hlast
    cases hs
    exact ⟨m, hbefore, .of_step_eq hstep⟩
  · rintro ⟨m, hbefore, hstep⟩
    refine ⟨m, hbefore, ?_⟩
    rw [List.foldlM_cons, hstep.step_eq]
    rfl

/-- The state after some tokens comes from the step that read the last of them. -/
theorem feed_last {tokens : List Token} (h : feed t {} tokens = .ok s) :
    (tokens = [] ∧ s = {}) ∨
      ∃ before token m, tokens = before ++ [token] ∧ feed t {} before = .ok m ∧
        Step t m token s := by
  rcases List.eq_nil_or_concat' tokens with rfl | ⟨before, token, rfl⟩
  · cases h
    exact Or.inl ⟨rfl, rfl⟩
  · obtain ⟨m, hbefore, hstep⟩ := feed_snoc.1 h
    exact Or.inr ⟨before, token, m, rfl, hbefore, hstep⟩

/-- A line is rejected at its first refused token, or at its end. -/
theorem readAll_eq_error_iff {tokens : List Token} :
    readAll t tokens stop = .error r ↔
      (∃ before token after s, tokens = before ++ token :: after ∧ feed t {} before = .ok s ∧
        Refusal t s token r) ∨
      ∃ s, feed t {} tokens = .ok s ∧ Shortfall t stop s r := by
  unfold readAll
  rw [bind_eq_error]
  refine or_congr ?_ ?_
  · unfold feed
    rw [foldlM_eq_error]
    constructor
    · rintro ⟨before, token, after, s, htokens, hfeed, hstep⟩
      exact ⟨before, token, after, s, htokens, hfeed, .of_step_eq hstep⟩
    · rintro ⟨before, token, after, s, htokens, hfeed, hrefused⟩
      exact ⟨before, token, after, s, htokens, hfeed, hrefused.step_eq⟩
  · constructor
    · rintro ⟨s, hfeed, hfinish⟩
      exact ⟨s, hfeed, .of_finish_eq hfinish⟩
    · rintro ⟨s, hfeed, hshort⟩
      exact ⟨s, hfeed, hshort.finish_eq⟩

theorem parse_of_lineTokens {line : String} {tokens : List Token}
    (h : lineTokens line = .ok tokens) :
    parse t line = (readAll t tokens (lineEnd line)).mapError Rejection.diagnostic := by
  unfold parse
  rw [h]
  rfl

/-- A line is rejected because it cannot be cut into tokens, or because of its tokens. -/
theorem parse_eq_error {line : String} {d : Diagnostic} (h : parse t line = .error d) :
    (∃ u, scan (Text.indent line.toList) (Text.trim line.toList) = .error u ∧ d = u.diagnostic) ∨
      ∃ tokens r, lineTokens line = .ok tokens ∧ readAll t tokens (lineEnd line) = .error r ∧
        d = r.diagnostic := by
  unfold parse at h
  rcases bind_eq_error.1 h with hlex | ⟨tokens, hlex, hread⟩
  · rcases mapError_eq_error_iff.1 hlex with ⟨u, hu, hd⟩
    exact Or.inl ⟨u, hu, hd.symm⟩
  · rcases mapError_eq_error_iff.1 hread with ⟨r, hr, hd⟩
    exact Or.inr ⟨tokens, r, hlex, hr, hd.symm⟩

end TrafficKey.Direct
