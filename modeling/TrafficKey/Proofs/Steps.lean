import TrafficKey.Parse.Direct

/-!
# What a token can do

The direct parser's step, as the list of everything that an accepted token can do to the state. What a
line keeps from token to token is proved by going through this list.
-/

namespace TrafficKey.Direct

/-- One accepted token. -/
inductive Step (t : Tables) : State → Token → State → Prop
  /-- a name where a key starts -/
  | keyName {stage : Stage} {keys : List Key} {read depth : Nat} {token : Token}
      (hstage : stage = .start ∨ ∃ comma, stage = .afterComma comma)
      (hk : token.kind = .identifier) :
      Step t ⟨stage, keys, read, depth⟩ token ⟨.keyName token, keys, read + 1, depth⟩
  /-- the first colon of a computed key -/
  | openKey {name token : Token} {shape : FunctionShape} {keys : List Key} {read depth : Nat}
      (hk : token.kind = .colon) (hl : t.registry.lookup name.value = some shape) :
      Step t ⟨.keyName name, keys, read, depth⟩ token
        ⟨.argument token ⟨shape, name, []⟩ [], keys, read + 1, depth⟩
  /-- the comma after a key name -/
  | endName {name token : Token} {entry : KeyName} {keys : List Key} {read depth : Nat}
      (hk : token.kind = .comma) (hl : t.catalog.lookup name.value = some entry) :
      Step t ⟨.keyName name, keys, read, depth⟩ token
        ⟨.afterComma token, keys ++ [.name entry], read + 1, depth⟩
  /-- a bare argument where no key name is expected -/
  | literal {colon token : Token} {call : OpenCall} {outer : List OpenCall} {keys : List Key}
      {read depth : Nat} (hk : token.kind = .identifier) (hkind : call.nextKind ≠ some .key) :
      Step t ⟨.argument colon call outer, keys, read, depth⟩ token
        ⟨.afterArgument (call.push (.literal token.value)) outer, keys, read + 1, depth⟩
  /-- a key name as an argument -/
  | key {colon token : Token} {call : OpenCall} {outer : List OpenCall} {entry : KeyName}
      {keys : List Key} {read depth : Nat} (hk : token.kind = .identifier)
      (hkind : call.nextKind = some .key) (hl : t.catalog.lookup token.value = some entry) :
      Step t ⟨.argument colon call outer, keys, read, depth⟩ token
        ⟨.afterArgument (call.push (.key entry)) outer, keys, read + 1, depth⟩
  /-- an opening bracket -/
  | openBracket {colon token : Token} {call : OpenCall} {outer : List OpenCall} {keys : List Key}
      {read depth : Nat} (hk : token.kind = .lbracket) (hkind : call.nextKind ≠ some .literal)
      (hdepth : depth < maxDepth) :
      Step t ⟨.argument colon call outer, keys, read, depth⟩ token
        ⟨.opened call outer, keys, read + 1, depth + 1⟩
  /-- a colon before the next argument -/
  | nextArgument {token : Token} {call : OpenCall} {outer : List OpenCall} {keys : List Key}
      {read depth : Nat} (hk : token.kind = .colon) :
      Step t ⟨.afterArgument call outer, keys, read, depth⟩ token
        ⟨.argument token call outer, keys, read + 1, depth⟩
  /-- the comma after a computed key -/
  | endComputed {token : Token} {call : OpenCall} {keys : List Key} {read depth : Nat}
      (hk : token.kind = .comma) (ha : call.shape.arity.accepts call.args.length = true) :
      Step t ⟨.afterArgument call [], keys, read, depth⟩ token
        ⟨.afterComma token, keys ++ [.computed call.close], read + 1, depth⟩
  /-- a closing bracket -/
  | closeBracket {token : Token} {call parent : OpenCall} {outer : List OpenCall}
      {keys : List Key} {read depth : Nat} (hk : token.kind = .rbracket)
      (ha : call.shape.arity.accepts call.args.length = true) :
      Step t ⟨.afterArgument call (parent :: outer), keys, read, depth⟩ token
        ⟨.afterArgument (parent.push call.close.asArgument) outer, keys, read + 1, depth - 1⟩
  /-- the name after an opening bracket -/
  | nestedName {token : Token} {call : OpenCall} {outer : List OpenCall} {keys : List Key}
      {read depth : Nat} (hk : token.kind = .identifier) :
      Step t ⟨.opened call outer, keys, read, depth⟩ token
        ⟨.named token call outer, keys, read + 1, depth⟩
  /-- the first colon of a nested call -/
  | openNested {name token : Token} {shape : FunctionShape} {call : OpenCall}
      {outer : List OpenCall} {keys : List Key} {read depth : Nat} (hk : token.kind = .colon)
      (hl : t.registry.lookup name.value = some shape) :
      Step t ⟨.named name call outer, keys, read, depth⟩ token
        ⟨.argument token ⟨shape, name, []⟩ (call :: outer), keys, read + 1, depth⟩

variable {t : Tables} {s s' : State} {token : Token}

theorem Step.step_eq (h : Step t s token s') : step t s token = .ok s' := by
  cases h with
  | keyName hstage hk => rcases hstage with rfl | ⟨comma, rfl⟩ <;> simp [step, hk, State.move]
  | openKey hk hl => simp [step, openCall, hk, hl, State.move]
  | endName hk hl => simp [step, endKey, hk, hl, State.move]
  | literal hk hkind => simp [step, readArgument, hk, hkind, State.move]
  | key hk hkind hl => simp [step, readArgument, hk, hkind, hl, State.move]
  | openBracket hk hkind hdepth => simp [step, readArgument, hk, hkind, hdepth, State.move]
  | nextArgument hk => simp [step, hk, State.move]
  | endComputed hk ha => simp [step, endCall, endKey, hk, ha, State.move]
  | closeBracket hk ha => simp [step, endCall, hk, ha, State.move]
  | nestedName hk => simp [step, hk, State.move]
  | openNested hk hl => simp [step, openCall, hk, hl, State.move]

/-- A key is ended by a comma only. -/
theorem endKey_eq_ok {key : Key} (h : endKey s key token = .ok s') :
    token.kind = .comma ∧ s' = ⟨.afterComma token, s.keys ++ [key], s.read + 1, s.depth⟩ := by
  unfold endKey at h
  split at h
  · rename_i hk
    cases h
    exact ⟨hk, rfl⟩
  · cases h
  · cases h

/-- A call is opened only if the registry has it. -/
theorem openCall_eq_ok {name colon : Token} {outer : List OpenCall}
    (h : openCall t s name colon outer = .ok s') :
    ∃ shape, t.registry.lookup name.value = some shape ∧
      s' = ⟨.argument colon ⟨shape, name, []⟩ outer, s.keys, s.read + 1, s.depth⟩ := by
  unfold openCall at h
  split at h
  · cases h
  · rename_i shape hl
    cases h
    exact ⟨shape, hl, rfl⟩

theorem Step.of_step_eq (h : step t s token = .ok s') : Step t s token s' := by
  rcases s with ⟨stage, keys, read, depth⟩
  cases stage with
  | start | afterComma comma =>
    by_cases hk : token.kind = .identifier
    · simp only [step, hk, if_true] at h
      cases h
      exact .keyName (by simp) hk
    · simp only [step, hk, if_false] at h
      cases h
  | keyName name =>
    by_cases hk : token.kind = .colon
    · simp only [step, hk, if_true] at h
      rcases openCall_eq_ok h with ⟨shape, hl, rfl⟩
      exact .openKey hk hl
    · -- without a colon the name must be a key name, whatever the token is
      simp only [step, hk, if_false] at h
      split at h
      · cases h
      · rename_i entry hl
        rcases endKey_eq_ok h with ⟨hcomma, rfl⟩
        exact .endName hcomma hl
  | argument colon call outer =>
    simp only [step, readArgument] at h
    split at h
    · rename_i hk
      split at h
      · cases h
      · rename_i hlit
        split at h
        · cases h
        · rename_i hdeep
          cases h
          exact .openBracket hk hlit (Nat.lt_of_not_le hdeep)
    · rename_i hk
      split at h
      · rename_i hkey
        split at h
        · cases h
        · rename_i entry hl
          cases h
          exact .key hk hkey hl
      · rename_i hkey
        cases h
        exact .literal hk hkey
    · cases h
  | afterArgument call outer =>
    by_cases hk : token.kind = .colon
    · simp only [step, hk, if_true] at h
      cases h
      exact .nextArgument hk
    · -- the argument count is looked at before the token
      simp only [step, hk, if_false, endCall] at h
      split at h
      · rename_i ha
        split at h
        · rcases endKey_eq_ok h with ⟨hcomma, rfl⟩
          exact .endComputed hcomma ha
        · split at h
          · rename_i hr
            cases h
            exact .closeBracket hr ha
          · cases h
      · cases h
  | opened call outer =>
    by_cases hk : token.kind = .identifier
    · simp only [step, hk, if_true] at h
      cases h
      exact .nestedName hk
    · simp only [step, hk, if_false] at h
      cases h
  | named name call outer =>
    by_cases hk : token.kind = .colon
    · simp only [step, hk, if_true] at h
      rcases openCall_eq_ok h with ⟨shape, hl, rfl⟩
      exact .openNested hk hl
    · simp only [step, hk, if_false] at h
      cases h

theorem Step.stage_ne_start (h : Step t s token s') : s'.stage ≠ .start := by
  cases h <;> simp

/-! ## The end of input -/

/-- The end of input is accepted after a key name and after an argument of a top-level call. -/
inductive Finish (t : Tables) : State → Definition → Prop
  | name {name : Token} {entry : KeyName} {keys : List Key} {read depth : Nat}
      (hl : t.catalog.lookup name.value = some entry) :
      Finish t ⟨.keyName name, keys, read, depth⟩ (.snoc keys (.name entry))
  | computed {call : OpenCall} {keys : List Key} {read depth : Nat}
      (ha : call.shape.arity.accepts call.args.length = true) :
      Finish t ⟨.afterArgument call [], keys, read, depth⟩ (.snoc keys (.computed call.close))

variable {stop : Int} {d : Definition}

theorem Finish.finish_eq (h : Finish t s d) : finish t s stop = .ok d := by
  cases h with
  | name hl => simp [finish, hl]
  | computed ha => simp [finish, ha]

theorem Finish.of_finish_eq (h : finish t s stop = .ok d) : Finish t s d := by
  rcases s with ⟨stage, keys, read, depth⟩
  cases stage with
  | keyName name =>
    simp only [finish] at h
    split at h
    · cases h
    · rename_i entry hl
      cases h
      exact .name hl
  | afterArgument call outer =>
    simp only [finish] at h
    split at h
    · rename_i ha
      cases outer with
      | nil =>
        cases h
        exact .computed ha
      | cons parent rest => cases h
    · cases h
  | start | afterComma comma | argument colon call outer | opened call outer
  | named name call outer => cases h

end TrafficKey.Direct
