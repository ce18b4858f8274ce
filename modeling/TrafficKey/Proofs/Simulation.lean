import TrafficKey.Parse.Direct
import TrafficKey.Parse.Staged
import TrafficKey.Proofs.Grammar
import TrafficKey.Proofs.Offsets
import TrafficKey.Proofs.Runs
import TrafficKey.Proofs.Steps

/-!
# The staged parser follows the direct parser

The direct parser keeps its open calls with the arguments built so far. The staged parser keeps the
same calls twice, as frames of the checker and as an outline in the machine. `Simulates` ties the three
together, every token keeps the tie or is rejected by both with the same cause, and at the end of input
the outline resolves to the definition that the direct parser has built.
-/

namespace TrafficKey

/-- The diagnostic without the wording of what a malformed line should have had. Everything else stays:
kind, offset, what was found, names, suggestions, arity and argument count. -/
def Diagnostic.unworded : Diagnostic → Diagnostic
  | .malformed offset _ found => .malformed offset .token found
  | d => d

namespace Staged

/-- The failure without the wording of what was expected. -/
def Failure.unworded : Failure → Failure
  | .rejected d => .rejected d.unworded
  | f => f

/-- The failure is the rejection with this diagnostic, wording aside. -/
def SameCause (d : Diagnostic) (f : Failure) : Prop :=
  f.unworded = .rejected d.unworded

/-- The failure is the direct parser's rejection, moved by `base`. -/
def Rejects (base : Nat) (r : Direct.Rejection) (f : Failure) : Prop :=
  SameCause (r.diagnostic.shift base) f

/-- An open call of the direct parser, its frame in the checker and its outline. -/
structure CallMatches (t : Tables) (call : Direct.OpenCall) (frame : CallFrame)
    (outline : Outline.OpenCall) : Prop where
  lookup : t.registry.lookup call.name.value = some call.shape
  frame_shape : frame.shape = call.shape
  frame_name : frame.name = call.name
  outline_name : outline.name = call.name
  resolved : resolveArguments t call.shape 0 outline.args = .ok call.args

/-- The open calls, innermost first. A frame counts `begun` arguments more than the innermost call
has; around it, the argument that is being read is counted in advance. -/
inductive StackMatches (t : Tables) :
    Nat → List Direct.OpenCall → List CallFrame → List Outline.OpenCall → Prop
  | nil (begun : Nat) : StackMatches t begun [] [] []
  | cons {begun : Nat} {call : Direct.OpenCall} {calls : List Direct.OpenCall}
      {frame : CallFrame} {frames : List CallFrame}
      {outline : Outline.OpenCall} {outlines : List Outline.OpenCall}
      (head : CallMatches t call frame outline)
      (count : frame.args = call.args.length + begun)
      (nested : frame.nested = !calls.isEmpty)
      (tail : StackMatches t 1 calls frames outlines) :
      StackMatches t begun (call :: calls) (frame :: frames) (outline :: outlines)

/-- What the checker and the machine remember at a stage of the direct parser. -/
inductive StageMatches (t : Tables) : Direct.Stage → Checker → Outline.Place → Prop
  | start {c : Checker} (hstage : c.stage = .key) (hframes : c.frames = [])
      (hprevious : c.previous = none) : StageMatches t .start c .keyStart
  | afterComma {c : Checker} {comma : Token} (hstage : c.stage = .key) (hframes : c.frames = [])
      (hprevious : c.previous = some comma) (hcomma : comma.kind = .comma) :
      StageMatches t (.afterComma comma) c .keyStart
  | keyName {c : Checker} {name : Token} (hstage : c.stage = .keyName) (hframes : c.frames = [])
      (hpending : c.pending = some name) : StageMatches t (.keyName name) c (.keyName name)
  | argument {c : Checker} {colon : Token} {call : Direct.OpenCall}
      {outer : List Direct.OpenCall} {oc : Outline.OpenCall} {oo : List Outline.OpenCall}
      (hstage : c.stage = .argument) (hprevious : c.previous = some colon)
      (hstack : StackMatches t 0 (call :: outer) c.frames (oc :: oo)) :
      StageMatches t (.argument colon call outer) c (.argument oc oo)
  | afterArgument {c : Checker} {call : Direct.OpenCall} {outer : List Direct.OpenCall}
      {oc : Outline.OpenCall} {oo : List Outline.OpenCall} (hstage : c.stage = .afterArgument)
      (hstack : StackMatches t 0 (call :: outer) c.frames (oc :: oo)) :
      StageMatches t (.afterArgument call outer) c (.afterArgument oc oo)
  | opened {c : Checker} {call : Direct.OpenCall} {outer : List Direct.OpenCall}
      {oc : Outline.OpenCall} {oo : List Outline.OpenCall} (hstage : c.stage = .callName)
      (hstack : StackMatches t 1 (call :: outer) c.frames (oc :: oo)) :
      StageMatches t (.opened call outer) c (.callStart oc oo)
  | named {c : Checker} {name : Token} {call : Direct.OpenCall} {outer : List Direct.OpenCall}
      {oc : Outline.OpenCall} {oo : List Outline.OpenCall} (hstage : c.stage = .nestedName)
      (hpending : c.pending = some name)
      (hstack : StackMatches t 1 (call :: outer) c.frames (oc :: oo)) :
      StageMatches t (.named name call outer) c (.callName name oc oo)

/-- The staged parser's state stands for the direct parser's. -/
structure Simulates (t : Tables) (s : Direct.State) (st : State Outline.Machine) : Prop where
  keys : st.reader.keys.mapM (resolveKey t) = .ok s.keys
  depth : st.checker.depth = s.depth
  stage : StageMatches t s.stage st.checker st.reader.place

/-! ## Resolving one argument or key more -/

theorem resolveArguments_length {t : Tables} {shape : FunctionShape} {i : Nat}
    {args : List Outline.Argument} {resolved : List Argument}
    (h : resolveArguments t shape i args = .ok resolved) : resolved.length = args.length := by
  induction args generalizing i resolved with
  | nil =>
    rw [resolveArguments] at h
    cases h
    rfl
  | cons arg args ih =>
    rw [resolveArguments, bind_eq_ok] at h
    rcases h with ⟨head, _, h⟩
    rcases bind_eq_ok.1 h with ⟨tail, htail, hres⟩
    cases hres
    simp [ih htail]

theorem resolveArguments_append {t : Tables} {shape : FunctionShape} {i : Nat}
    {args : List Outline.Argument} {arg : Outline.Argument} {resolved : List Argument}
    {last : Argument} (h : resolveArguments t shape i args = .ok resolved)
    (hlast : resolveArgument t (shape.kindAt (i + args.length)) arg = .ok last) :
    resolveArguments t shape i (args ++ [arg]) = .ok (resolved ++ [last]) := by
  induction args generalizing i resolved with
  | nil =>
    rw [resolveArguments] at h
    cases h
    have hhead : resolveArgument t (shape.kindAt i) arg = .ok last := by simpa using hlast
    rw [List.nil_append, resolveArguments, hhead, resolveArguments]
    rfl
  | cons head args ih =>
    rw [resolveArguments, bind_eq_ok] at h
    rcases h with ⟨first, hfirst, h⟩
    rcases bind_eq_ok.1 h with ⟨tail, htail, hres⟩
    cases hres
    have hnext := ih htail (by simpa [Nat.add_comm, Nat.add_left_comm] using hlast)
    rw [List.cons_append, resolveArguments, hfirst, hnext]
    rfl

theorem mapM_resolveKey_append {t : Tables} {keys : List Outline.Key} {key : Outline.Key}
    {resolved : List Key} {last : Key} (h : keys.mapM (resolveKey t) = .ok resolved)
    (hlast : resolveKey t key = .ok last) :
    (keys ++ [key]).mapM (resolveKey t) = .ok (resolved ++ [last]) := by
  rw [List.mapM_append, h, List.mapM_cons, hlast]
  rfl

namespace CallMatches

variable {t : Tables} {call : Direct.OpenCall} {frame : CallFrame} {oc : Outline.OpenCall}

/-- A call without arguments yet. -/
theorem start {name : Token} {shape : FunctionShape}
    (h : t.registry.lookup name.value = some shape) (nested : Bool) :
    CallMatches t ⟨shape, name, []⟩ ⟨shape, name, nested, 0⟩ ⟨name, []⟩ :=
  ⟨h, rfl, rfl, rfl, by rw [resolveArguments]⟩

/-- One argument more, resolved by the kind that the direct parser expects. -/
theorem push (h : CallMatches t call frame oc) {arg : Outline.Argument} {resolved : Argument}
    (harg : resolveArgument t call.nextKind arg = .ok resolved) :
    CallMatches t (call.push resolved) frame (oc.push arg) where
  lookup := h.lookup
  frame_shape := h.frame_shape
  frame_name := h.frame_name
  outline_name := h.outline_name
  resolved := by
    have hkind : call.shape.kindAt (0 + oc.args.length) = call.nextKind := by
      rw [Nat.zero_add, ← resolveArguments_length h.resolved]
      rfl
    have hlast : resolveArgument t (call.shape.kindAt (0 + oc.args.length)) arg = .ok resolved := by
      rw [hkind, harg]
    exact resolveArguments_append h.resolved hlast

/-- The number of arguments that a frame has begun does not matter. -/
theorem count (h : CallMatches t call frame oc) (n : Nat) :
    CallMatches t call { frame with args := n } oc :=
  ⟨h.lookup, h.frame_shape, h.frame_name, h.outline_name, h.resolved⟩

/-- The outline of a call that has been read resolves to the call. -/
theorem resolve_nested (h : CallMatches t call frame oc) (kind : Option ArgKind) :
    resolveArgument t kind (.nested oc.name oc.args) = .ok call.close.asArgument := by
  have hf : resolveFunction t oc.name = .ok call.shape := by
    simp [resolveFunction, h.outline_name, h.lookup]
  rw [resolveArgument, hf]
  change (resolveArguments t call.shape 0 oc.args >>= _) = _
  rw [h.resolved]
  rfl

theorem resolve_key (h : CallMatches t call frame oc) :
    resolveKey t (.call oc.name oc.args) = .ok (.computed call.close) := by
  have hf : resolveFunction t oc.name = .ok call.shape := by
    simp [resolveFunction, h.outline_name, h.lookup]
  rw [resolveKey, hf]
  change (resolveArguments t call.shape 0 oc.args >>= _) = _
  rw [h.resolved]
  rfl

end CallMatches

/-- The innermost open call has a frame of its own. -/
theorem StackMatches.frame {t : Tables} {begun : Nat} {call : Direct.OpenCall}
    {outer : List Direct.OpenCall} {frames : List CallFrame} {oc : Outline.OpenCall}
    {oo : List Outline.OpenCall} (h : StackMatches t begun (call :: outer) frames (oc :: oo)) :
    ∃ frame rest, frames = frame :: rest ∧ CallMatches t call frame oc ∧
      frame.args = call.args.length + begun ∧ frame.nested = !outer.isEmpty ∧
      StackMatches t 1 outer rest oo := by
  cases h with
  | cons head count nested tail => exact ⟨_, _, rfl, head, count, nested, tail⟩

/-! ## How the two parsers answer a token -/

section

variable {t : Tables} {base length : Nat} {s s' : Direct.State} {token : Token}
  {c c' : Checker} {m m' : Outline.Machine}

theorem check_eq_ok (h : c.onToken t base token = .ok c') :
    c.check t base token = .ok { c' with previous := some token } := by
  unfold Checker.check
  rw [h]
  rfl

theorem check_eq_error {f : CheckFault} (h : c.onToken t base token = .error f) :
    c.check t base token = .error f := by
  unfold Checker.check
  rw [h]
  rfl

theorem step_of_check {σ : Type} {e : Outline.Engine σ} {r : σ}
    (h : c.check t base token = .ok c') :
    step e t base length ⟨c, r⟩ token =
      (grammar base length (e.step r token)).map (State.mk c') := by
  unfold step
  simp only [h]
  cases e.step r token <;> rfl

theorem step_of_fault {σ : Type} {e : Outline.Engine σ} {r : σ} {f : CheckFault}
    (h : c.check t base token = .error f) :
    step e t base length ⟨c, r⟩ token = .error (ofCheckFault f) := by
  unfold step
  simp only [h]
  rfl

theorem finish_of_check {σ : Type} {e : Outline.Engine σ} {r : σ}
    (h : c.check t base (Token.stop length) = .ok c') :
    finish e t base length ⟨c, r⟩ = grammar base length (e.finish r (Token.stop length)) := by
  unfold finish
  simp only [h]
  rfl

theorem finish_of_fault {σ : Type} {e : Outline.Engine σ} {r : σ} {f : CheckFault}
    (h : c.check t base (Token.stop length) = .error f) :
    finish e t base length ⟨c, r⟩ = .error (ofCheckFault f) := by
  unfold finish
  simp only [h]
  rfl

/-- Both parsers read the token. -/
theorem agree_of_ok (hd : Direct.step t s token = .ok s') (hc : c.onToken t base token = .ok c')
    (hm : m.step token = .ok m')
    (h : Simulates t s' ⟨{ c' with previous := some token }, m'⟩) :
    Agree (Simulates t) (Rejects base) (Direct.step t s token)
      (step Outline.engine t base length ⟨c, m⟩ token) := by
  rw [hd, step_of_check (check_eq_ok hc)]
  change Agree _ _ _ ((grammar base length (m.step token)).map _)
  rw [hm]
  exact h

/-- The token does not fit: the checker leaves it to the grammar. -/
theorem agree_of_unexpected {e : Expectation} {u : Outline.Unexpected}
    (hd : Direct.step t s token = s.unexpected e token)
    (hc : ∃ c', c.onToken t base token = .ok c') (hm : m.step token = .error u)
    (hk : token.kind ≠ .eof) :
    Agree (Simulates t) (Rejects base) (Direct.step t s token)
      (step Outline.engine t base length ⟨c, m⟩ token) := by
  rcases hc with ⟨c', hc⟩
  have hu : u.token = token := Outline.Machine.step_error_token hm
  rw [hd, step_of_check (check_eq_ok hc)]
  change Agree _ _ _ ((grammar base length (m.step token)).map _)
  rw [hm]
  change Failure.unworded (.rejected _) = .rejected (Diagnostic.unworded (.malformed _ _ _))
  simp [Failure.unworded, Outline.Unexpected.fault, Outline.Fault.diagnostic, hu, hk,
    Diagnostic.unworded]

/-- The token, or something before it, does not fit the tables. -/
theorem agree_of_rejected {r : Direct.Rejection} {d : Diagnostic}
    (hd : Direct.step t s token = .error r)
    (hc : c.onToken t base token = .error (.rejected d))
    (h : r.diagnostic.shift base = d) :
    Agree (Simulates t) (Rejects base) (Direct.step t s token)
      (step Outline.engine t base length ⟨c, m⟩ token) := by
  rw [hd, step_of_fault (check_eq_error hc)]
  exact congrArg (fun d => Failure.unworded (.rejected d)) h.symm

/-! ## One token, stage by stage -/

theorem agree_keyStart (hs : s.stage = .start ∨ ∃ comma, s.stage = .afterComma comma)
    (hstage : c.stage = .key) (hframes : c.frames = []) (hplace : m.place = .keyStart)
    (hkeys : m.keys.mapM (resolveKey t) = .ok s.keys) (hdepth : c.depth = s.depth)
    (hk : token.kind ≠ .eof) :
    Agree (Simulates t) (Rejects base) (Direct.step t s token)
      (step Outline.engine t base length ⟨c, m⟩ token) := by
  by_cases hid : token.kind = .identifier
  · have hd : Direct.step t s token = .ok (s.move (.keyName token)) := by
      rcases hs with hs | ⟨comma, hs⟩ <;> simp [Direct.step, hs, hid]
    have hc : c.onToken t base token =
        .ok { c with pending := some token, stage := .keyName } := by
      simp [Checker.onToken, hstage, Checker.onKey, hid]
    have hm : m.step token = .ok { m with place := .keyName token } := by
      simp [Outline.Machine.step, hplace, hid]
    exact agree_of_ok hd hc hm ⟨hkeys, hdepth, .keyName rfl hframes rfl⟩
  · have hd : Direct.step t s token = s.unexpected .keyOrFunction token := by
      rcases hs with hs | ⟨comma, hs⟩ <;> simp [Direct.step, hs, hid]
    have hc : c.onToken t base token = .ok c := by
      cases hkind : token.kind <;> simp_all [Checker.onToken, Checker.onKey]
    have hm : m.step token = .error ⟨token, [.identifier]⟩ := by
      cases hkind : token.kind <;> simp_all [Outline.Machine.step]
    exact agree_of_unexpected hd ⟨c, hc⟩ hm hk

/-- A whole key before a token that is not a colon. -/
theorem agree_endKey {key : Key} {outline : Outline.Key}
    (hd : Direct.step t s token = Direct.endKey s key token)
    (hc : c.onToken t base token = .ok (Checker.onAfterKey c' token))
    (hframes : c'.frames = []) (hdepth : c'.depth = s.depth)
    (hcomma : token.kind = .comma → m.step token = .ok ⟨.keyStart, m.keys ++ [outline]⟩)
    (hother : token.kind ≠ .comma → ∃ u, m.step token = .error u)
    (hkeys : m.keys.mapM (resolveKey t) = .ok s.keys) (hkey : resolveKey t outline = .ok key)
    (hk : token.kind ≠ .eof) :
    Agree (Simulates t) (Rejects base) (Direct.step t s token)
      (step Outline.engine t base length ⟨c, m⟩ token) := by
  by_cases hkind : token.kind = .comma
  · rw [Checker.onAfterKey, if_pos hkind] at hc
    have hd' : Direct.step t s token =
        .ok { s.move (.afterComma token) with keys := s.keys ++ [key] } := by
      rw [hd]
      simp [Direct.endKey, hkind]
    refine agree_of_ok hd' hc (hcomma hkind) ⟨?_, hdepth, .afterComma rfl hframes rfl hkind⟩
    exact mapM_resolveKey_append hkeys hkey
  · rcases hother hkind with ⟨u, hu⟩
    by_cases hr : token.kind = .rbracket
    · have hd' : Direct.step t s token = s.unexpected .keyEndUnmatched token := by
        rw [hd]
        simp [Direct.endKey, hr]
      exact agree_of_unexpected hd' ⟨_, hc⟩ hu hk
    · have hd' : Direct.step t s token = s.unexpected .keyEnd token := by
        rw [hd]
        cases h : token.kind <;> simp_all [Direct.endKey]
      exact agree_of_unexpected hd' ⟨_, hc⟩ hu hk

theorem agree_keyName {name : Token} (hs : s.stage = .keyName name) (hstage : c.stage = .keyName)
    (hframes : c.frames = []) (hpending : c.pending = some name)
    (hplace : m.place = .keyName name) (hkeys : m.keys.mapM (resolveKey t) = .ok s.keys)
    (hdepth : c.depth = s.depth) (hk : token.kind ≠ .eof) :
    Agree (Simulates t) (Rejects base) (Direct.step t s token)
      (step Outline.engine t base length ⟨c, m⟩ token) := by
  by_cases hcolon : token.kind = .colon
  · cases hl : t.registry.lookup name.value with
    | none =>
      have hd : Direct.step t s token =
          s.reject (t.functionDiagnostic name.value name.offset) := by
        simp [Direct.step, hs, hcolon, Direct.openCall, hl]
      have hc : c.onToken t base token =
          .error (.rejected (t.functionDiagnostic name.value (base + name.offset))) := by
        simp [Checker.onToken, hstage, Checker.onKeyName, hcolon, Checker.openCall,
          Checker.pendingName, hpending, hl, Checker.reject, bind, Except.bind]
      exact agree_of_rejected hd hc rfl
    | some shape =>
      have hd : Direct.step t s token =
          .ok (s.move (.argument token ⟨shape, name, []⟩ [])) := by
        simp [Direct.step, hs, hcolon, Direct.openCall, hl]
      have hc : c.onToken t base token =
          .ok { c with frames := [⟨shape, name, false, 0⟩], stage := .argument } := by
        simp [Checker.onToken, hstage, Checker.onKeyName, hcolon, Checker.openCall,
          Checker.pendingName, hpending, hl, Checker.onAfterArgument, hframes, bind, Except.bind]
      have hm : m.step token = .ok { m with place := .argument ⟨name, []⟩ [] } := by
        simp [Outline.Machine.step, hplace, hcolon]
      have hstack : StackMatches t 0 [⟨shape, name, []⟩] [⟨shape, name, false, 0⟩] [⟨name, []⟩] :=
        .cons (.start hl false) rfl rfl (.nil 1)
      exact agree_of_ok hd hc hm ⟨hkeys, hdepth, .argument rfl rfl hstack⟩
  · cases hl : t.catalog.lookup name.value with
    | none =>
      have hd : Direct.step t s token = s.reject (t.nameDiagnostic name.value name.offset) := by
        simp [Direct.step, hs, hcolon, hl]
      have hc : c.onToken t base token =
          .error (.rejected (t.nameDiagnostic name.value (base + name.offset))) := by
        simp [Checker.onToken, hstage, Checker.onKeyName, hcolon, Checker.pendingName, hpending,
          Checker.checkName, hl, Checker.reject, bind, Except.bind]
      exact agree_of_rejected hd hc rfl
    | some entry =>
      have hd : Direct.step t s token = Direct.endKey s (.name entry) token := by
        simp [Direct.step, hs, hcolon, hl]
      have hc : c.onToken t base token =
          .ok (Checker.onAfterKey { c with stage := .afterKey } token) := by
        simp [Checker.onToken, hstage, Checker.onKeyName, hcolon, Checker.pendingName, hpending,
          Checker.checkName, hl, bind, Except.bind]
        rfl
      have hkey : resolveKey t (.bare name) = .ok (.name entry) := by
        simp [resolveKey, resolveName, hl, bind, Except.bind]
        rfl
      refine agree_endKey hd hc hframes hdepth ?_ ?_ hkeys hkey hk
      · intro hcomma
        simp [Outline.Machine.step, hplace, hcomma]
      · intro hcomma
        cases h : token.kind <;> simp_all [Outline.Machine.step]

/-- The checker refuses one open bracket too many. -/
theorem onToken_tooDeep {call : Direct.OpenCall} {outer : List Direct.OpenCall}
    {oc : Outline.OpenCall} {oo : List Outline.OpenCall} (hstage : c.stage = .argument)
    (hstack : StackMatches t 0 (call :: outer) c.frames (oc :: oo)) (htoken : token.kind = .lbracket)
    (hlit : call.nextKind ≠ some .literal) (hdeep : maxDepth ≤ c.depth) :
    c.onToken t base token =
      .error (.rejected (.malformed (base + token.offset) .lessNesting none)) := by
  obtain ⟨frame, frames, hframes, hcall, hcount, _⟩ := hstack.frame
  have hkind : frame.shape.kindAt frame.args = call.nextKind := by
    rw [hcall.frame_shape, hcount]
    rfl
  simp [Checker.onToken, hstage, Checker.onArgument, hframes, htoken, hkind, hlit, hdeep,
    Checker.reject]

/-- An opening bracket where an argument starts. -/
theorem agree_openBracket {colon : Token} {call : Direct.OpenCall} {outer : List Direct.OpenCall}
    {oc : Outline.OpenCall} {oo : List Outline.OpenCall} (hs : s.stage = .argument colon call outer)
    (hstage : c.stage = .argument) (hstack : StackMatches t 0 (call :: outer) c.frames (oc :: oo))
    (hplace : m.place = .argument oc oo) (hkeys : m.keys.mapM (resolveKey t) = .ok s.keys)
    (hdepth : c.depth = s.depth) (htoken : token.kind = .lbracket)
    (hvalue : token.kind.Matches token.value.toList) :
    Agree (Simulates t) (Rejects base) (Direct.step t s token)
      (step Outline.engine t base length ⟨c, m⟩ token) := by
  rcases hstack.frame with ⟨frame, frames, hframes, hcall, hcount, hnested, houter⟩
  have hkind : frame.shape.kindAt frame.args = call.nextKind := by
    rw [hcall.frame_shape, hcount]
    rfl
  have hopen : token.value = "[" := by
    rw [htoken] at hvalue
    exact String.toList_inj.1 hvalue
  by_cases hlit : call.nextKind = some .literal
  · have hd : Direct.step t s token = s.unexpected .literalArgument token := by
      simp [Direct.step, hs, Direct.readArgument, htoken, hlit]
    have hc : c.onToken t base token =
        .error (.rejected (.malformed (base + token.offset) .literalArgument (some "["))) := by
      simp [Checker.onToken, hstage, Checker.onArgument, hframes, htoken, hkind, hlit,
        Checker.reject]
    -- the checker writes the bracket itself, the direct parser the token's text
    refine agree_of_rejected hd hc ?_
    simp [Diagnostic.shift, hopen]
  · by_cases hdeep : maxDepth ≤ s.depth
    · have hd : Direct.step t s token =
          .error ⟨.malformed token.offset .lessNesting none, s.read + 1, s.depth⟩ := by
        simp [Direct.step, hs, Direct.readArgument, htoken, hlit, hdeep]
      exact agree_of_rejected hd (onToken_tooDeep hstage hstack htoken hlit (hdepth ▸ hdeep)) rfl
    · have hd : Direct.step t s token =
          .ok { s.move (.opened call outer) with depth := s.depth + 1 } := by
        simp [Direct.step, hs, Direct.readArgument, htoken, hlit, hdeep]
      have hc : c.onToken t base token =
          .ok { c with
            frames := { frame with args := frame.args + 1 } :: frames
            depth := c.depth + 1
            stage := .callName } := by
        simp [Checker.onToken, hstage, Checker.onArgument, hframes, htoken, hkind, hlit, hdepth,
          hdeep]
      have hm : m.step token = .ok { m with place := .callStart oc oo } := by
        simp [Outline.Machine.step, hplace, htoken]
      have hbegun : StackMatches t 1 (call :: outer)
          ({ frame with args := frame.args + 1 } :: frames) (oc :: oo) :=
        .cons (hcall.count _) (by simp [hcount]) hnested houter
      exact agree_of_ok hd hc hm ⟨hkeys, by simp [hdepth], .opened rfl hbegun⟩

/-- A bare argument: both parsers look it up just when a key is expected. -/
theorem agree_bareArgument {colon : Token} {call : Direct.OpenCall} {outer : List Direct.OpenCall}
    {oc : Outline.OpenCall} {oo : List Outline.OpenCall} (hs : s.stage = .argument colon call outer)
    (hstage : c.stage = .argument) (hstack : StackMatches t 0 (call :: outer) c.frames (oc :: oo))
    (hplace : m.place = .argument oc oo) (hkeys : m.keys.mapM (resolveKey t) = .ok s.keys)
    (hdepth : c.depth = s.depth) (htoken : token.kind = .identifier) :
    Agree (Simulates t) (Rejects base) (Direct.step t s token)
      (step Outline.engine t base length ⟨c, m⟩ token) := by
  rcases hstack.frame with ⟨frame, frames, hframes, hcall, hcount, hnested, houter⟩
  have hkind : frame.shape.kindAt frame.args = call.nextKind := by
    rw [hcall.frame_shape, hcount]
    rfl
  -- however the argument resolves, all three sides have one argument more
  have hpush : ∀ arg, resolveArgument t call.nextKind (.bare token) = .ok arg →
      StackMatches t 0 (call.push arg :: outer)
        ({ frame with args := frame.args + 1 } :: frames) (oc.push (.bare token) :: oo) := by
    intro arg harg
    refine .cons ((hcall.push harg).count _) ?_ hnested houter
    simp [Direct.OpenCall.push, hcount]
  have hm : m.step token = .ok { m with place := .afterArgument (oc.push (.bare token)) oo } := by
    simp [Outline.Machine.step, hplace, htoken]
  by_cases hkey : call.nextKind = some .key
  · cases hl : t.catalog.lookup token.value with
    | none =>
      have hd : Direct.step t s token =
          .error ⟨t.nameDiagnostic token.value token.offset, s.read + 1, s.depth⟩ := by
        simp [Direct.step, hs, Direct.readArgument, htoken, hkey, hl]
      have hc : c.onToken t base token =
          .error (.rejected (t.nameDiagnostic token.value (base + token.offset))) := by
        simp [Checker.onToken, hstage, Checker.onArgument, hframes, htoken, hkind, hkey,
          Checker.checkName, hl, Checker.reject, bind, Except.bind]
      exact agree_of_rejected hd hc rfl
    | some entry =>
      have hd : Direct.step t s token =
          .ok (s.move (.afterArgument (call.push (.key entry)) outer)) := by
        simp [Direct.step, hs, Direct.readArgument, htoken, hkey, hl]
      have hc : c.onToken t base token =
          .ok { c with
            frames := { frame with args := frame.args + 1 } :: frames
            stage := .afterArgument } := by
        simp [Checker.onToken, hstage, Checker.onArgument, hframes, htoken, hkind, hkey,
          Checker.checkName, hl, bind, Except.bind]
        rfl
      have harg : resolveArgument t call.nextKind (.bare token) = .ok (.key entry) := by
        simp [resolveArgument, resolveBare, hkey, resolveName, hl, bind, Except.bind]
        rfl
      exact agree_of_ok hd hc hm ⟨hkeys, hdepth, .afterArgument rfl (hpush _ harg)⟩
  · have hd : Direct.step t s token =
        .ok (s.move (.afterArgument (call.push (.literal token.value)) outer)) := by
      simp [Direct.step, hs, Direct.readArgument, htoken, hkey]
    have hc : c.onToken t base token =
        .ok { c with
          frames := { frame with args := frame.args + 1 } :: frames
          stage := .afterArgument } := by
      simp [Checker.onToken, hstage, Checker.onArgument, hframes, htoken, hkind, hkey]
      rfl
    have harg : resolveArgument t call.nextKind (.bare token) = .ok (.literal token.value) := by
      simp [resolveArgument, resolveBare, hkey]
      rfl
    exact agree_of_ok hd hc hm ⟨hkeys, hdepth, .afterArgument rfl (hpush _ harg)⟩

theorem agree_argument {colon : Token} {call : Direct.OpenCall} {outer : List Direct.OpenCall}
    {oc : Outline.OpenCall} {oo : List Outline.OpenCall} (hs : s.stage = .argument colon call outer)
    (hstage : c.stage = .argument) (hstack : StackMatches t 0 (call :: outer) c.frames (oc :: oo))
    (hplace : m.place = .argument oc oo) (hkeys : m.keys.mapM (resolveKey t) = .ok s.keys)
    (hdepth : c.depth = s.depth) (hvalue : token.kind.Matches token.value.toList) :
    Agree (Simulates t) (Rejects base) (Direct.step t s token)
      (step Outline.engine t base length ⟨c, m⟩ token) := by
  cases htoken : token.kind with
  | lbracket => exact agree_openBracket hs hstage hstack hplace hkeys hdepth htoken hvalue
  | identifier => exact agree_bareArgument hs hstage hstack hplace hkeys hdepth htoken
  | colon | comma | rbracket =>
    rcases hstack.frame with ⟨frame, frames, hframes, _⟩
    have hd : Direct.step t s token = s.unexpected .argument token := by
      simp [Direct.step, hs, Direct.readArgument, htoken]
    have hc : c.onToken t base token = .ok c := by
      simp [Checker.onToken, hstage, Checker.onArgument, hframes, htoken]
    have hm : m.step token = .error ⟨token, [.identifier, .lbracket]⟩ := by
      simp [Outline.Machine.step, hplace, htoken]
    exact agree_of_unexpected hd ⟨c, hc⟩ hm (by simp [htoken])
  | eof =>
    rw [htoken] at hvalue
    exact absurd hvalue id

/-- A token after an argument that ends the innermost call. Both parsers look at the argument count
before they look at the token. -/
theorem agree_endCall {call : Direct.OpenCall} {outer : List Direct.OpenCall}
    {oc : Outline.OpenCall} {oo : List Outline.OpenCall} (hs : s.stage = .afterArgument call outer)
    (hstage : c.stage = .afterArgument)
    (hstack : StackMatches t 0 (call :: outer) c.frames (oc :: oo))
    (hplace : m.place = .afterArgument oc oo) (hkeys : m.keys.mapM (resolveKey t) = .ok s.keys)
    (hdepth : c.depth = s.depth) (hk : token.kind ≠ .eof) (hcolon : token.kind ≠ .colon) :
    Agree (Simulates t) (Rejects base) (Direct.step t s token)
      (step Outline.engine t base length ⟨c, m⟩ token) := by
  rcases hstack.frame with ⟨frame, frames, hframes, hcall, hcount, hnested, houter⟩
  have hshape := hcall.frame_shape
  have hname := hcall.frame_name
  rw [Nat.add_zero] at hcount
  by_cases haccept : call.shape.arity.accepts call.args.length = true
  · cases houter with
    | nil =>
      have hd : Direct.step t s token = Direct.endKey s (.computed call.close) token := by
        simp [Direct.step, hs, hcolon, Direct.endCall, haccept]
      have hc : c.onToken t base token =
          .ok (Checker.onAfterKey { c with frames := [], stage := .afterKey } token) := by
        simp [Checker.onToken, hstage, Checker.onAfterArgument, hcolon, hframes, hshape, hcount,
          haccept, hnested]
      refine agree_endKey hd hc rfl hdepth ?_ ?_ hkeys hcall.resolve_key hk
      · intro hcomma
        simp [Outline.Machine.step, hplace, hcomma]
      · intro hcomma
        cases h : token.kind <;> simp_all [Outline.Machine.step]
    | @cons _ parent rest pframe pframes po pos hparent hpcount hpnested htail =>
      by_cases hr : token.kind = .rbracket
      · have hd : Direct.step t s token =
            .ok { s.move (.afterArgument (parent.push call.close.asArgument) rest) with
              depth := s.depth - 1 } := by
          simp [Direct.step, hs, hr, Direct.endCall, haccept]
        have hc : c.onToken t base token =
            .ok { c with frames := pframe :: pframes, depth := c.depth - 1 } := by
          simp [Checker.onToken, hstage, Checker.onAfterArgument, hr, hframes, hshape, hcount,
            haccept, hnested]
        have hm : m.step token =
            .ok { m with place := .afterArgument (po.push (.nested oc.name oc.args)) pos } := by
          simp [Outline.Machine.step, hplace, hr]
        -- the parent's frame has counted this argument since its bracket was opened
        have hclosed : StackMatches t 0 (parent.push call.close.asArgument :: rest)
            (pframe :: pframes) (po.push (.nested oc.name oc.args) :: pos) := by
          refine .cons (hparent.push (hcall.resolve_nested _)) ?_ hpnested htail
          simp [Direct.OpenCall.push, hpcount]
        exact agree_of_ok hd hc hm ⟨hkeys, by simp [hdepth], .afterArgument hstage hclosed⟩
      · have hd : Direct.step t s token = s.unexpected .closingBracket token := by
          simp [Direct.step, hs, hcolon, hr, Direct.endCall, haccept]
        have hc : c.onToken t base token = .ok { c with frames := pframe :: pframes } := by
          simp [Checker.onToken, hstage, Checker.onAfterArgument, hcolon, hr, hframes, hshape,
            hcount, haccept, hnested]
        have hm : ∃ u, m.step token = .error u := by
          cases h : token.kind <;> simp_all [Outline.Machine.step]
        rcases hm with ⟨u, hm⟩
        exact agree_of_unexpected hd ⟨_, hc⟩ hm hk
  · have hd : Direct.step t s token = s.reject call.arityDiagnostic := by
      simp [Direct.step, hs, hcolon, Direct.endCall, haccept]
    have hc : c.onToken t base token =
        .error (.rejected (.arityMismatch call.shape.name call.shape.arity call.args.length
          (base + call.name.offset))) := by
      simp [Checker.onToken, hstage, Checker.onAfterArgument, hcolon, hframes, hshape, hcount,
        haccept, hname, Checker.reject]
    exact agree_of_rejected hd hc rfl

theorem agree_afterArgument {call : Direct.OpenCall} {outer : List Direct.OpenCall}
    {oc : Outline.OpenCall} {oo : List Outline.OpenCall} (hs : s.stage = .afterArgument call outer)
    (hstage : c.stage = .afterArgument)
    (hstack : StackMatches t 0 (call :: outer) c.frames (oc :: oo))
    (hplace : m.place = .afterArgument oc oo) (hkeys : m.keys.mapM (resolveKey t) = .ok s.keys)
    (hdepth : c.depth = s.depth) (hk : token.kind ≠ .eof) :
    Agree (Simulates t) (Rejects base) (Direct.step t s token)
      (step Outline.engine t base length ⟨c, m⟩ token) := by
  by_cases hcolon : token.kind = .colon
  · have hd : Direct.step t s token = .ok (s.move (.argument token call outer)) := by
      simp [Direct.step, hs, hcolon]
    have hc : c.onToken t base token = .ok { c with stage := .argument } := by
      simp [Checker.onToken, hstage, Checker.onAfterArgument, hcolon]
    have hm : m.step token = .ok { m with place := .argument oc oo } := by
      simp [Outline.Machine.step, hplace, hcolon]
    exact agree_of_ok hd hc hm ⟨hkeys, hdepth, .argument rfl rfl hstack⟩
  · exact agree_endCall hs hstage hstack hplace hkeys hdepth hk hcolon

theorem agree_opened {call : Direct.OpenCall} {outer : List Direct.OpenCall}
    {oc : Outline.OpenCall} {oo : List Outline.OpenCall} (hs : s.stage = .opened call outer)
    (hstage : c.stage = .callName) (hstack : StackMatches t 1 (call :: outer) c.frames (oc :: oo))
    (hplace : m.place = .callStart oc oo) (hkeys : m.keys.mapM (resolveKey t) = .ok s.keys)
    (hdepth : c.depth = s.depth) (hk : token.kind ≠ .eof) :
    Agree (Simulates t) (Rejects base) (Direct.step t s token)
      (step Outline.engine t base length ⟨c, m⟩ token) := by
  by_cases hid : token.kind = .identifier
  · have hd : Direct.step t s token = .ok (s.move (.named token call outer)) := by
      simp [Direct.step, hs, hid]
    have hc : c.onToken t base token =
        .ok { c with pending := some token, stage := .nestedName } := by
      simp [Checker.onToken, hstage, hid]
    have hm : m.step token = .ok { m with place := .callName token oc oo } := by
      simp [Outline.Machine.step, hplace, hid]
    exact agree_of_ok hd hc hm ⟨hkeys, hdepth, .named rfl rfl hstack⟩
  · have hd : Direct.step t s token = s.unexpected .functionName token := by
      simp [Direct.step, hs, hid]
    have hc : c.onToken t base token = .ok c := by
      simp [Checker.onToken, hstage, hid]
    have hm : m.step token = .error ⟨token, [.identifier]⟩ := by
      cases h : token.kind <;> simp_all [Outline.Machine.step]
    exact agree_of_unexpected hd ⟨c, hc⟩ hm hk

theorem agree_named {name : Token} {call : Direct.OpenCall} {outer : List Direct.OpenCall}
    {oc : Outline.OpenCall} {oo : List Outline.OpenCall} (hs : s.stage = .named name call outer)
    (hstage : c.stage = .nestedName) (hpending : c.pending = some name)
    (hstack : StackMatches t 1 (call :: outer) c.frames (oc :: oo))
    (hplace : m.place = .callName name oc oo) (hkeys : m.keys.mapM (resolveKey t) = .ok s.keys)
    (hdepth : c.depth = s.depth) (hk : token.kind ≠ .eof) :
    Agree (Simulates t) (Rejects base) (Direct.step t s token)
      (step Outline.engine t base length ⟨c, m⟩ token) := by
  by_cases hcolon : token.kind = .colon
  · cases hl : t.registry.lookup name.value with
    | none =>
      have hd : Direct.step t s token =
          s.reject (t.functionDiagnostic name.value name.offset) := by
        simp [Direct.step, hs, hcolon, Direct.openCall, hl]
      have hc : c.onToken t base token =
          .error (.rejected (t.functionDiagnostic name.value (base + name.offset))) := by
        simp [Checker.onToken, hstage, hcolon, Checker.openCall, Checker.pendingName, hpending, hl,
          Checker.reject, bind, Except.bind]
      exact agree_of_rejected hd hc rfl
    | some shape =>
      have hd : Direct.step t s token =
          .ok (s.move (.argument token ⟨shape, name, []⟩ (call :: outer))) := by
        simp [Direct.step, hs, hcolon, Direct.openCall, hl]
      have hc : c.onToken t base token =
          .ok { c with frames := ⟨shape, name, true, 0⟩ :: c.frames, stage := .argument } := by
        simp [Checker.onToken, hstage, hcolon, Checker.openCall, Checker.pendingName, hpending, hl,
          Checker.onAfterArgument, bind, Except.bind]
      have hm : m.step token = .ok { m with place := .argument ⟨name, []⟩ (oc :: oo) } := by
        simp [Outline.Machine.step, hplace, hcolon]
      have hnew : StackMatches t 0 (⟨shape, name, []⟩ :: call :: outer)
          (⟨shape, name, true, 0⟩ :: c.frames) (⟨name, []⟩ :: oc :: oo) :=
        .cons (.start hl true) rfl rfl hstack
      exact agree_of_ok hd hc hm ⟨hkeys, hdepth, .argument rfl rfl hnew⟩
  · have hd : Direct.step t s token = s.unexpected .colonAfterName token := by
      simp [Direct.step, hs, hcolon]
    have hc : c.onToken t base token = .ok c := by
      simp [Checker.onToken, hstage, hcolon]
    have hm : m.step token = .error ⟨token, [.colon]⟩ := by
      cases h : token.kind <;> simp_all [Outline.Machine.step]
    exact agree_of_unexpected hd ⟨c, hc⟩ hm hk

end

/-- A token of a line keeps the tie between the parsers, or both reject it for the same cause. -/
theorem step_agree {t : Tables} {base length : Nat} {s : Direct.State}
    {st : State Outline.Machine} {token : Token} (h : Simulates t s st)
    (hvalue : token.kind.Matches token.value.toList) :
    Agree (Simulates t) (Rejects base) (Direct.step t s token)
      (step Outline.engine t base length st token) := by
  have hk : token.kind ≠ .eof := by
    intro hk
    rw [hk] at hvalue
    exact hvalue
  rcases s with ⟨stage, keys, read, depth⟩
  rcases st with ⟨c, place, outlines⟩
  rcases h with ⟨hkeys, hdepth, hmatch⟩
  cases hmatch with
  | start hstage hframes _ => exact agree_keyStart (Or.inl rfl) hstage hframes rfl hkeys hdepth hk
  | afterComma hstage hframes _ _ =>
    exact agree_keyStart (Or.inr ⟨_, rfl⟩) hstage hframes rfl hkeys hdepth hk
  | keyName hstage hframes hpending =>
    exact agree_keyName rfl hstage hframes hpending rfl hkeys hdepth hk
  | argument hstage _ hstack => exact agree_argument rfl hstage hstack rfl hkeys hdepth hvalue
  | afterArgument hstage hstack => exact agree_afterArgument rfl hstage hstack rfl hkeys hdepth hk
  | opened hstage hstack => exact agree_opened rfl hstage hstack rfl hkeys hdepth hk
  | named hstage hpending hstack =>
    exact agree_named rfl hstage hpending hstack rfl hkeys hdepth hk

/-! ## The end of input -/

section

variable {t : Tables} {base length : Nat} {s : Direct.State} {c c' : Checker}
  {m : Outline.Machine}

/-- Both parsers have a whole line. -/
theorem finish_agree_of_ok {d : Definition} {outline : List Outline.Key × Outline.Key}
    (hd : Direct.finish t s length = .ok d)
    (hc : c.onToken t base (Token.stop length) = .ok c')
    (hm : m.finish (Token.stop length) = .ok outline) (h : resolve t outline = .ok d) :
    Agree (fun d outline => resolve t outline = .ok d) (Rejects base) (Direct.finish t s length)
      (finish Outline.engine t base length ⟨c, m⟩) := by
  rw [hd, finish_of_check (check_eq_ok hc)]
  change Agree _ _ _ (grammar base length (m.finish (Token.stop length)))
  rw [hm]
  exact h

/-- The line ends too early: the checker leaves it to the grammar. -/
theorem finish_agree_of_unexpected {e : Expectation} {u : Outline.Unexpected}
    (hd : Direct.finish t s length = s.reject (.malformed length e none))
    (hc : ∃ c', c.onToken t base (Token.stop length) = .ok c')
    (hm : m.finish (Token.stop length) = .error u) :
    Agree (fun d outline => resolve t outline = .ok d) (Rejects base) (Direct.finish t s length)
      (finish Outline.engine t base length ⟨c, m⟩) := by
  rcases hc with ⟨c', hc⟩
  have hu : u.token = Token.stop length := Outline.Machine.finish_error_token hm
  rw [hd, finish_of_check (check_eq_ok hc)]
  change Agree _ _ _ (grammar base length (m.finish (Token.stop length)))
  rw [hm]
  change Failure.unworded (.rejected _) = .rejected (Diagnostic.unworded (.malformed _ _ _))
  simp [Failure.unworded, Outline.Unexpected.fault, Outline.Fault.diagnostic, hu, Token.stop,
    Diagnostic.unworded]

/-- The line does not fit the tables, or ends after a separator. -/
theorem finish_agree_of_rejected {r : Direct.Rejection} {d : Diagnostic}
    (hd : Direct.finish t s length = .error r)
    (hc : c.onToken t base (Token.stop length) = .error (.rejected d))
    (h : r.diagnostic.shift base = d) :
    Agree (fun d outline => resolve t outline = .ok d) (Rejects base) (Direct.finish t s length)
      (finish Outline.engine t base length ⟨c, m⟩) := by
  rw [hd, finish_of_fault (check_eq_error hc)]
  exact congrArg (fun d => Failure.unworded (.rejected d)) h.symm

theorem resolve_snoc {outlines : List Outline.Key} {outline : Outline.Key} {keys : List Key}
    {key : Key} (hkeys : outlines.mapM (resolveKey t) = .ok keys)
    (hkey : resolveKey t outline = .ok key) :
    resolve t (outlines, outline) = .ok (.snoc keys key) := by
  unfold resolve
  rw [hkeys]
  change (resolveKey t outline >>= _) = _
  rw [hkey]
  rfl

theorem finish_agree_keyName {name : Token} (hs : s.stage = .keyName name)
    (hstage : c.stage = .keyName) (hpending : c.pending = some name)
    (hplace : m.place = .keyName name) (hkeys : m.keys.mapM (resolveKey t) = .ok s.keys) :
    Agree (fun d outline => resolve t outline = .ok d) (Rejects base) (Direct.finish t s length)
      (finish Outline.engine t base length ⟨c, m⟩) := by
  cases hl : t.catalog.lookup name.value with
  | none =>
    have hd : Direct.finish t s length = s.reject (t.nameDiagnostic name.value name.offset) := by
      simp [Direct.finish, hs, hl]
    have hc : c.onToken t base (Token.stop length) =
        .error (.rejected (t.nameDiagnostic name.value (base + name.offset))) := by
      simp [Checker.onToken, hstage, Checker.onKeyName, Token.stop, Checker.pendingName, hpending,
        Checker.checkName, hl, Checker.reject, bind, Except.bind]
    exact finish_agree_of_rejected hd hc rfl
  | some entry =>
    have hd : Direct.finish t s length = .ok (.snoc s.keys (.name entry)) := by
      simp [Direct.finish, hs, hl]
    have hc : c.onToken t base (Token.stop length) = .ok { c with stage := .afterKey } := by
      simp [Checker.onToken, hstage, Checker.onKeyName, Token.stop, Checker.pendingName, hpending,
        Checker.checkName, hl, Checker.onAfterKey, bind, Except.bind]
      rfl
    have hm : m.finish (Token.stop length) = .ok (m.keys, .bare name) := by
      simp [Outline.Machine.finish, hplace]
    have hkey : resolveKey t (.bare name) = .ok (.name entry) := by
      simp [resolveKey, resolveName, hl, bind, Except.bind]
      rfl
    exact finish_agree_of_ok hd hc hm (resolve_snoc hkeys hkey)

theorem finish_agree_afterArgument {call : Direct.OpenCall} {outer : List Direct.OpenCall}
    {oc : Outline.OpenCall} {oo : List Outline.OpenCall} (hs : s.stage = .afterArgument call outer)
    (hstage : c.stage = .afterArgument)
    (hstack : StackMatches t 0 (call :: outer) c.frames (oc :: oo))
    (hplace : m.place = .afterArgument oc oo) (hkeys : m.keys.mapM (resolveKey t) = .ok s.keys) :
    Agree (fun d outline => resolve t outline = .ok d) (Rejects base) (Direct.finish t s length)
      (finish Outline.engine t base length ⟨c, m⟩) := by
  rcases hstack.frame with ⟨frame, frames, hframes, hcall, hcount, hnested, houter⟩
  have hshape := hcall.frame_shape
  have hname := hcall.frame_name
  rw [Nat.add_zero] at hcount
  by_cases haccept : call.shape.arity.accepts call.args.length = true
  · cases houter with
    | nil =>
      have hd : Direct.finish t s length = .ok (.snoc s.keys (.computed call.close)) := by
        simp [Direct.finish, hs, haccept]
      have hc : c.onToken t base (Token.stop length) =
          .ok { c with frames := [], stage := .afterKey } := by
        simp [Checker.onToken, hstage, Checker.onAfterArgument, Token.stop, hframes, hshape,
          hcount, haccept, hnested, Checker.onAfterKey]
      have hm : m.finish (Token.stop length) = .ok (m.keys, .call oc.name oc.args) := by
        simp [Outline.Machine.finish, hplace]
      exact finish_agree_of_ok hd hc hm (resolve_snoc hkeys hcall.resolve_key)
    | cons hparent hpcount hpnested htail =>
      have hd : Direct.finish t s length = s.reject (.malformed length .closingBracket none) := by
        simp [Direct.finish, hs, haccept]
      have hc : ∃ c', c.onToken t base (Token.stop length) = .ok c' := by
        simp [Checker.onToken, hstage, Checker.onAfterArgument, Token.stop, hframes, hshape,
          hcount, haccept, hnested]
      have hm : m.finish (Token.stop length) = .error ⟨Token.stop length, [.rbracket]⟩ := by
        simp [Outline.Machine.finish, hplace]
      exact finish_agree_of_unexpected hd hc hm
  · have hd : Direct.finish t s length = s.reject call.arityDiagnostic := by
      simp [Direct.finish, hs, haccept]
    have hc : c.onToken t base (Token.stop length) =
        .error (.rejected (.arityMismatch call.shape.name call.shape.arity call.args.length
          (base + call.name.offset))) := by
      simp [Checker.onToken, hstage, Checker.onAfterArgument, Token.stop, hframes, hshape, hcount,
        haccept, hname, Checker.reject]
    exact finish_agree_of_rejected hd hc rfl

end

/-- After at least one token, the end of input gives the same line or the same cause. -/
theorem finish_agree {t : Tables} {base length : Nat} {s : Direct.State}
    {st : State Outline.Machine} (h : Simulates t s st) (hs : s.stage ≠ .start) :
    Agree (fun d outline => resolve t outline = .ok d) (Rejects base) (Direct.finish t s length)
      (finish Outline.engine t base length st) := by
  rcases s with ⟨stage, keys, read, depth⟩
  rcases st with ⟨c, place, outlines⟩
  rcases h with ⟨hkeys, hdepth, hmatch⟩
  dsimp only at hmatch
  cases hmatch with
  | start => exact absurd rfl hs
  | @afterComma _ comma hstage _ hprevious hcomma =>
    have hc : c.onToken t base (Token.stop length) =
        .error (.rejected (.malformed (base + comma.offset) .keyAfterComma none)) := by
      simp [Checker.onToken, hstage, Checker.onKey, Token.stop, hprevious, hcomma, Checker.reject]
    exact finish_agree_of_rejected rfl hc rfl
  | keyName hstage _ hpending => exact finish_agree_keyName rfl hstage hpending rfl hkeys
  | @argument _ colon call outer oc oo hstage hprevious hstack =>
    have hc : c.onToken t base (Token.stop length) =
        .error (.rejected (.malformed (base + colon.offset) .argumentAfterColon none)) := by
      rcases hstack.frame with ⟨frame, frames, hframes, _⟩
      simp [Checker.onToken, hstage, Checker.onArgument, hframes, Token.stop,
        Checker.previousToken, hprevious, Checker.reject, bind, Except.bind]
    exact finish_agree_of_rejected rfl hc rfl
  | afterArgument hstage hstack => exact finish_agree_afterArgument rfl hstage hstack rfl hkeys
  | opened hstage _ =>
    have hc : c.onToken t base (Token.stop length) = .ok c := by
      simp [Checker.onToken, hstage, Token.stop]
    exact finish_agree_of_unexpected rfl ⟨c, hc⟩ rfl
  | named hstage _ _ =>
    have hc : c.onToken t base (Token.stop length) = .ok c := by
      simp [Checker.onToken, hstage, Token.stop]
    exact finish_agree_of_unexpected rfl ⟨c, hc⟩ rfl

/-! ## A whole line, read by the machine -/

theorem simulates_start (t : Tables) : Simulates t {} ⟨{}, Outline.engine.start⟩ :=
  ⟨rfl, rfl, .start rfl rfl rfl⟩

/-- Reads the tokens of a trimmed line at `base` with an engine. -/
def readTokens {σ : Type} (e : Outline.Engine σ) (t : Tables) (base length : Nat)
    (tokens : List Token) : Except Failure (List Outline.Key × Outline.Key) := do
  let s ← tokens.foldlM (step e t base length) ⟨{}, e.start⟩
  finish e t base length s

theorem readAll_agree (t : Tables) (base length : Nat) {tokens : List Token} (hne : tokens ≠ [])
    (hvalues : ∀ token ∈ tokens, token.kind.Matches token.value.toList) :
    Agree (fun d outline => resolve t outline = .ok d) (Rejects base)
      (Direct.readAll t tokens length) (readTokens Outline.engine t base length tokens) := by
  -- after the first token the line is not empty any more
  have hstep : ∀ token ∈ tokens, ∀ s st, Simulates t s st →
      Agree (fun s st => Simulates t s st ∧ s.stage ≠ .start) (Rejects base)
        (Direct.step t s token) (step Outline.engine t base length st token) := by
    intro token htoken s st h
    refine (step_agree h (hvalues token htoken)).imp ?_ (fun _ _ h => h)
    intro s' st' hs' h'
    exact ⟨h', (Direct.Step.of_step_eq hs').stage_ne_start⟩
  cases tokens with
  | nil => exact absurd rfl hne
  | cons first rest =>
    have hrun : Agree (fun s st => Simulates t s st ∧ s.stage ≠ .start) (Rejects base)
        (Direct.feed t {} (first :: rest))
        ((first :: rest).foldlM (step Outline.engine t base length) ⟨{}, Outline.engine.start⟩) := by
      unfold Direct.feed
      rw [List.foldlM_cons, List.foldlM_cons]
      refine Agree.bind (hstep first (by simp) _ _ (simulates_start t)) ?_
      intro s st h
      exact Agree.foldlM (fun x hx a b hab => hstep x (by simp [hx]) a b hab.1) h
    exact hrun.bind fun s st h => finish_agree h.1 h.2

end Staged

end TrafficKey
