import TrafficKey.Parse.Direct
import TrafficKey.Proofs.Scanning

/-!
# Offsets only say where

The direct parser never looks at an offset: it only copies offsets into diagnostics. So a line that
starts `n` characters further right is read in the same way, with every offset greater by `n`, and
reading an untrimmed line is reading the trimmed one with its offsets moved by the indentation.
-/

namespace TrafficKey

/-- The token `n` characters further right. -/
def Token.shift (n : Int) (token : Token) : Token :=
  { token with offset := n + token.offset }

@[simp] theorem Token.shift_kind (n : Int) (token : Token) :
    (token.shift n).kind = token.kind := rfl

@[simp] theorem Token.shift_value (n : Int) (token : Token) :
    (token.shift n).value = token.value := rfl

/-- The character `n` characters further right. -/
def Unmatched.shift (n : Nat) (u : Unmatched) : Unmatched :=
  { u with offset := n + u.offset }

/-- Scanning from further right moves the tokens and changes nothing else. -/
theorem scan_shift (n offset : Nat) (cs : List Char) :
    scan (n + offset) cs =
      ((scan offset cs).map (List.map (Token.shift n))).mapError (Unmatched.shift n) := by
  induction offset, cs using scan_induction with
  | nil offset =>
    rw [scan_nil, scan_nil]
    rfl
  | token offset kind text rest hm hmax ih =>
    rw [scan_append _ hm hmax, scan_append _ hm hmax, Nat.add_assoc, ih]
    cases scan (offset + text.length) rest with
    | error u => rfl
    | ok tokens => simp [Except.map, Except.mapError, Token.shift]
  | stuck offset c cs hc =>
    rw [scan_of_not_startsToken hc, scan_of_not_startsToken hc]
    rfl

namespace Direct

/-- The open call `n` characters further right. -/
def OpenCall.shift (n : Int) (c : OpenCall) : OpenCall :=
  { c with name := c.name.shift n }

/-- The stage `n` characters further right. -/
def Stage.shift (n : Int) : Stage → Stage
  | .start => .start
  | .afterComma comma => .afterComma (comma.shift n)
  | .keyName name => .keyName (name.shift n)
  | .argument colon call outer =>
    .argument (colon.shift n) (call.shift n) (outer.map (OpenCall.shift n))
  | .afterArgument call outer => .afterArgument (call.shift n) (outer.map (OpenCall.shift n))
  | .opened call outer => .opened (call.shift n) (outer.map (OpenCall.shift n))
  | .named name call outer =>
    .named (name.shift n) (call.shift n) (outer.map (OpenCall.shift n))

/-- The state `n` characters further right. -/
def State.shift (n : Int) (s : State) : State :=
  { s with stage := s.stage.shift n }

/-- The rejection `n` characters further right. -/
def Rejection.shift (n : Int) (r : Rejection) : Rejection :=
  { r with diagnostic := r.diagnostic.shift n }

/-! ## One step -/

theorem openCall_shift (t : Tables) (n : Int) (s : State) (name colon : Token)
    (outer : List OpenCall) :
    openCall t (s.shift n) (name.shift n) (colon.shift n) (outer.map (OpenCall.shift n)) =
      ((openCall t s name colon outer).map (State.shift n)).mapError (Rejection.shift n) := by
  unfold openCall
  cases h : t.registry.lookup name.value <;> simp only [Token.shift_value, h] <;> rfl

theorem endKey_shift (n : Int) (s : State) (key : Key) (token : Token) :
    endKey (s.shift n) key (token.shift n) =
      ((endKey s key token).map (State.shift n)).mapError (Rejection.shift n) := by
  unfold endKey
  cases h : token.kind <;> simp only [Token.shift_kind, h] <;> rfl

theorem readArgument_shift (t : Tables) (n : Int) (s : State) (call : OpenCall)
    (outer : List OpenCall) (token : Token) :
    readArgument t (s.shift n) (call.shift n) (outer.map (OpenCall.shift n)) (token.shift n) =
      ((readArgument t s call outer token).map (State.shift n)).mapError (Rejection.shift n) := by
  have hnext : (call.shift n).nextKind = call.nextKind := rfl
  have hdepth : (s.shift n).depth = s.depth := rfl
  unfold readArgument
  cases h : token.kind with
  | lbracket =>
    by_cases hlit : call.nextKind = some .literal
    · simp only [Token.shift_kind, h, hnext, hlit, if_true]; rfl
    · by_cases hd : maxDepth ≤ s.depth
      · simp only [Token.shift_kind, h, hnext, hlit, hdepth, hd, if_true, if_false]; rfl
      · simp only [Token.shift_kind, h, hnext, hlit, hdepth, hd, if_false]; rfl
  | identifier =>
    by_cases hkey : call.nextKind = some .key
    · cases hl : t.catalog.lookup token.value <;>
        simp only [Token.shift_kind, h, hnext, hkey, if_true, Token.shift_value, hl] <;> rfl
    · simp only [Token.shift_kind, h, hnext, hkey, if_false]; rfl
  | colon | comma | rbracket | eof => simp only [Token.shift_kind, h]; rfl

theorem endCall_shift (n : Int) (s : State) (call : OpenCall) (outer : List OpenCall)
    (token : Token) :
    endCall (s.shift n) (call.shift n) (outer.map (OpenCall.shift n)) (token.shift n) =
      ((endCall s call outer token).map (State.shift n)).mapError (Rejection.shift n) := by
  have hcall : (call.shift n).shape = call.shape ∧ (call.shift n).args = call.args := ⟨rfl, rfl⟩
  have hclose : (call.shift n).close = call.close := rfl
  unfold endCall
  by_cases ha : call.shape.arity.accepts call.args.length = true
  · cases outer with
    | nil =>
      simp only [hcall, hclose, ha, if_true, List.map_nil]
      exact endKey_shift n s _ token
    | cons parent rest =>
      by_cases hr : token.kind = .rbracket
      · simp only [hcall, hclose, ha, if_true, List.map_cons, Token.shift_kind, hr]; rfl
      · simp only [hcall, hclose, ha, if_true, List.map_cons, Token.shift_kind, hr, if_false]; rfl
  · simp only [hcall, ha]; rfl

/-- Reading a moved token in a moved state moves the outcome. -/
theorem step_shift (t : Tables) (n : Int) (s : State) (token : Token) :
    step t (s.shift n) (token.shift n) =
      ((step t s token).map (State.shift n)).mapError (Rejection.shift n) := by
  have hstage : (s.shift n).stage = s.stage.shift n := rfl
  unfold step
  rw [hstage]
  cases h : s.stage with
  | start | afterComma comma | opened call outer =>
    -- these stages wait for a name and copy it as it is
    by_cases hk : token.kind = .identifier <;>
      simp only [Stage.shift, Token.shift_kind, hk, if_true, if_false] <;> rfl
  | keyName name =>
    by_cases hk : token.kind = .colon
    · simp only [Stage.shift, Token.shift_kind, hk, if_true]
      exact openCall_shift t n s name token []
    · simp only [Stage.shift, Token.shift_kind, hk, if_false, Token.shift_value]
      cases hl : t.catalog.lookup name.value with
      | none => rfl
      | some entry => exact endKey_shift n s _ token
  | argument colon call outer => exact readArgument_shift t n s call outer token
  | afterArgument call outer =>
    by_cases hk : token.kind = .colon
    · simp only [Stage.shift, Token.shift_kind, hk, if_true]; rfl
    · simp only [Stage.shift, Token.shift_kind, hk, if_false]
      exact endCall_shift n s call outer token
  | named name call outer =>
    by_cases hk : token.kind = .colon
    · simp only [Stage.shift, Token.shift_kind, hk, if_true]
      exact openCall_shift t n s name token (call :: outer)
    · simp only [Stage.shift, Token.shift_kind, hk, if_false]; rfl

/-! ## A whole line -/

theorem feed_shift (t : Tables) (n : Int) (s : State) (tokens : List Token) :
    feed t (s.shift n) (tokens.map (Token.shift n)) =
      ((feed t s tokens).map (State.shift n)).mapError (Rejection.shift n) := by
  unfold feed
  induction tokens generalizing s with
  | nil => rfl
  | cons token tokens ih =>
    rw [List.map_cons, List.foldlM_cons, List.foldlM_cons, step_shift]
    cases step t s token with
    | error r => rfl
    | ok s' => exact ih s'

theorem finish_shift (t : Tables) (n : Int) (s : State) (stop : Int) :
    finish t (s.shift n) (n + stop) = (finish t s stop).mapError (Rejection.shift n) := by
  have hstage : (s.shift n).stage = s.stage.shift n := rfl
  unfold finish
  rw [hstage]
  cases h : s.stage with
  | start | afterComma comma | argument colon call outer | opened call outer
  | named name call outer => rfl
  | keyName name =>
    simp only [Stage.shift, Token.shift_value]
    cases t.catalog.lookup name.value <;> rfl
  | afterArgument call outer =>
    have hcall : (call.shift n).shape = call.shape ∧ (call.shift n).args = call.args := ⟨rfl, rfl⟩
    by_cases ha : call.shape.arity.accepts call.args.length = true
    · simp only [Stage.shift, hcall, ha, if_true]
      cases outer <;> rfl
    · simp only [Stage.shift, hcall, ha]
      rfl

theorem readAll_shift (t : Tables) (n : Int) (tokens : List Token) (stop : Int) :
    readAll t (tokens.map (Token.shift n)) (n + stop) =
      (readAll t tokens stop).mapError (Rejection.shift n) := by
  have hfeed := feed_shift t n {} tokens
  have hstart : State.shift n {} = {} := rfl
  rw [hstart] at hfeed
  unfold readAll
  rw [hfeed]
  cases feed t {} tokens with
  | error r => rfl
  | ok s => exact finish_shift t n s stop

/-- Reads a line that has no blanks around it. -/
def readTrimmed (t : Tables) (cs : List Char) : Except Diagnostic Definition := do
  let tokens ← (scan 0 cs).mapError Unmatched.diagnostic
  (readAll t tokens cs.length).mapError Rejection.diagnostic

/-- A line is read as its trimmed text, with every offset moved by the indentation. -/
theorem parse_eq_readTrimmed (t : Tables) (line : String) :
    parse t line =
      (readTrimmed t (Text.trim line.toList)).mapError
        (Diagnostic.shift (Text.indent line.toList)) := by
  have hscan := scan_shift (Text.indent line.toList) 0 (Text.trim line.toList)
  rw [Nat.add_zero] at hscan
  unfold parse lineTokens lineEnd readTrimmed
  rw [hscan]
  cases scan 0 (Text.trim line.toList) with
  | error u => simp [Except.map, Except.mapError, bind, Except.bind, Unmatched.diagnostic,
      Unmatched.shift, Diagnostic.shift]
  | ok tokens =>
    have hread := readAll_shift t (Text.indent line.toList) tokens (Text.trim line.toList).length
    simp only [Except.map, Except.mapError, bind, Except.bind, Int.natCast_add]
    rw [hread]
    cases readAll t tokens (Text.trim line.toList).length <;> rfl

end Direct

end TrafficKey
