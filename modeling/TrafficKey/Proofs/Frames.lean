import TrafficKey.Proofs.Nesting

/-!
# The checker's frames

The checker keeps a frame for each call that is open and counts its arguments, without ever seeing the
grammar. What should be open after some tokens of a line is said here by the grammar alone: the line is
cut into whole keys and the beginning of one more, and that beginning into calls of which each is an
argument of the one around it. As long as both the checker and the grammar accept the tokens, the
frames are exactly these calls.
-/

namespace TrafficKey

namespace Outline

/-- A call that is open, with the number of its arguments that have begun. -/
structure BegunCall where
  name : Token
  args : Nat
deriving DecidableEq

/-- The open calls with the arguments they have begun: the innermost `more` than it has read, and each
call around it one more, which is the call inside. -/
def begunCalls (more : Nat) : List OpenCall → List BegunCall
  | [] => []
  | call :: outer => ⟨call.name, call.args.length + more⟩ :: begunCalls 1 outer

/-- The calls that are open after some tokens of a key, innermost first. -/
inductive OpenInKey : List BegunCall → List Token → Prop
  /-- the key has not begun -/
  | start : OpenInKey [] []
  /-- a name by itself is no call -/
  | keyName {name : Token} (hname : name.kind = .identifier) : OpenInKey [] [name]
  /-- an argument comes next -/
  | colon {calls : List OpenCall} {tokens : List Token} {colon : Token}
      (h : Opened calls tokens) (hcolon : colon.kind = .colon) :
      OpenInKey (begunCalls 0 calls) (tokens ++ [colon])
  /-- an argument has ended -/
  | argument {call : OpenCall} {outer : List OpenCall} {tokens : List Token}
      (h : Opened (call :: outer) tokens) (hne : call.args ≠ []) :
      OpenInKey (begunCalls 0 (call :: outer)) tokens
  /-- an argument has begun with a bracket -/
  | bracket {calls : List OpenCall} {tokens : List Token} {colon opening : Token}
      (h : Opened calls tokens) (hcolon : colon.kind = .colon)
      (hopening : opening.kind = .lbracket) :
      OpenInKey (begunCalls 1 calls) (tokens ++ [colon, opening])
  /-- after the bracket, a name by itself is no call either -/
  | nestedName {name : Token} {parent : OpenCall} {outer : List OpenCall} {tokens : List Token}
      (h : Opened (⟨name, []⟩ :: parent :: outer) tokens) :
      OpenInKey (begunCalls 1 (parent :: outer)) tokens

/-- The calls that are open after some tokens of a line, innermost first. After the end of input there
are none. -/
def OpenCalls (calls : List BegunCall) (tokens : List Token) : Prop :=
  (∃ keys before current, tokens = before ++ current ∧ KeysBefore keys before ∧
      OpenInKey calls current) ∨
    (calls = [] ∧ ∃ line stop, tokens = line ++ [stop] ∧ stop.kind = .eof ∧ Sentence line)

/-! ## The machine has the same calls open -/

/-- The calls that are open at a place. -/
def Place.begun : Place → List BegunCall
  | .keyStart => []
  | .keyName _ => []
  | .argument call outer => begunCalls 0 (call :: outer)
  | .afterArgument call outer => begunCalls 0 (call :: outer)
  | .callStart call outer => begunCalls 1 (call :: outer)
  | .callName _ call outer => begunCalls 1 (call :: outer)

theorem Place.Reads.openInKey {place : Place} {tokens : List Token} (h : place.Reads tokens) :
    OpenInKey place.begun tokens := by
  cases place with
  | keyStart =>
    have htokens : tokens = [] := h
    rw [htokens]
    exact .start
  | keyName name =>
    obtain ⟨hname, rfl⟩ := h
    exact .keyName hname
  | argument call outer =>
    obtain ⟨before, colon, rfl, hcolon, hopened⟩ := h
    exact .colon hopened hcolon
  | afterArgument call outer =>
    obtain ⟨hne, hopened⟩ := h
    exact .argument hopened hne
  | callStart call outer =>
    obtain ⟨before, colon, opening, rfl, hcolon, hopening, hopened⟩ := h
    exact .bracket hopened hcolon hopening
  | callName name call outer => exact .nestedName h

namespace Machine

variable {keys : List Key} {tokens : List Token}

/-- Where the machine stands when a name or an argument has ended. -/
def placeAfter : List OpenCall → Place
  | [] => .keyStart
  | [⟨name, []⟩] => .keyName name
  | ⟨name, []⟩ :: parent :: outer => .callName name parent outer
  | ⟨name, arg :: args⟩ :: outer => .afterArgument ⟨name, arg :: args⟩ outer

theorem placeAfter_of_ne_nil {call : OpenCall} {outer : List OpenCall} (h : call.args ≠ []) :
    placeAfter (call :: outer) = .afterArgument call outer := by
  obtain ⟨name, args⟩ := call
  cases args with
  | nil => exact absurd rfl h
  | cons arg args => rfl

/-- From there a colon leads to the next argument. -/
theorem step_placeAfter (call : OpenCall) (outer : List OpenCall) {colon : Token}
    (hcolon : colon.kind = .colon) :
    step ⟨placeAfter (call :: outer), keys⟩ colon = .ok ⟨.argument call outer, keys⟩ := by
  obtain ⟨name, args⟩ := call
  cases args with
  | nil => cases outer <;> simp [placeAfter, step, hcolon]
  | cons arg args => simp [placeAfter, step, hcolon]

theorem feed_placeAfter {name : Token} {args : List Argument} (outer : List OpenCall)
    (h : Arguments args tokens) :
    feed ⟨placeAfter (⟨name, []⟩ :: outer), keys⟩ tokens =
      .ok ⟨placeAfter (⟨name, args⟩ :: outer), keys⟩ := by
  by_cases hne : args = []
  · subst hne
    cases h
    rfl
  · have hcolon : ∀ colon : Token, colon.kind = .colon →
        step ⟨placeAfter (⟨name, []⟩ :: outer), keys⟩ colon =
          .ok ⟨.argument ⟨name, []⟩ outer, keys⟩ :=
      fun colon hc => step_placeAfter ⟨name, []⟩ outer hc
    rw [feed_eq_afterArgument hcolon hne h, feed_arguments h, placeAfter_of_ne_nil hne]
    rfl

theorem feed_opened {calls : List OpenCall} (h : Opened calls tokens) :
    feed ⟨.keyStart, keys⟩ tokens = .ok ⟨placeAfter calls, keys⟩ := by
  induction h with
  | @top name args tokens hname hargs =>
    have hstart : step ⟨.keyStart, keys⟩ name = .ok ⟨placeAfter [⟨name, []⟩], keys⟩ := by
      simp [step, hname, placeAfter]
    rw [feed_cons hstart, feed_placeAfter [] hargs]
  | @nested parent outer colon opening name args before tokens _ hcolon hopening hname hargs ih =>
    have hopen : step ⟨.argument parent outer, keys⟩ opening =
        .ok ⟨.callStart parent outer, keys⟩ := by
      simp [step, hopening]
    have hnamed : step ⟨.callStart parent outer, keys⟩ name =
        .ok ⟨placeAfter (⟨name, []⟩ :: parent :: outer), keys⟩ := by
      simp [step, hname, placeAfter]
    rw [feed_append ih, feed_cons (step_placeAfter parent outer hcolon), feed_cons hopen,
      feed_cons hnamed, feed_placeAfter (parent :: outer) hargs]

/-- The machine reads the beginning of a key and has the same calls open. -/
theorem feed_openInKey {calls : List BegunCall} (h : OpenInKey calls tokens) :
    ∃ place, feed ⟨.keyStart, keys⟩ tokens = .ok ⟨place, keys⟩ ∧ place.begun = calls := by
  cases h with
  | start => exact ⟨.keyStart, rfl, rfl⟩
  | @keyName name hname =>
    refine ⟨.keyName name, ?_, rfl⟩
    have hstart : step ⟨.keyStart, keys⟩ name = .ok ⟨.keyName name, keys⟩ := by
      simp [step, hname]
    rw [feed_cons hstart, feed_nil]
  | @colon calls before colon hopened hcolon =>
    cases calls with
    | nil => cases hopened
    | cons call outer =>
      refine ⟨.argument call outer, ?_, rfl⟩
      rw [feed_append (feed_opened hopened), feed_cons (step_placeAfter call outer hcolon), feed_nil]
  | @argument call outer tokens hopened hne =>
    refine ⟨.afterArgument call outer, ?_, rfl⟩
    rw [feed_opened hopened, placeAfter_of_ne_nil hne]
  | @bracket calls before colon opening hopened hcolon hopening =>
    cases calls with
    | nil => cases hopened
    | cons call outer =>
      refine ⟨.callStart call outer, ?_, rfl⟩
      have hopen : step ⟨.argument call outer, keys⟩ opening =
          .ok ⟨.callStart call outer, keys⟩ := by
        simp [step, hopening]
      rw [feed_append (feed_opened hopened), feed_cons (step_placeAfter call outer hcolon),
        feed_cons hopen, feed_nil]
  | @nestedName name parent outer tokens hopened =>
    exact ⟨.callName name parent outer, feed_opened hopened, rfl⟩

theorem feed_keysBefore (h : KeysBefore keys tokens) :
    feed {} tokens = .ok ⟨.keyStart, keys⟩ := by
  obtain ⟨rfl, rfl⟩ | ⟨line, comma, hline, hcomma, rfl⟩ := h
  · rfl
  · obtain ⟨m, before, last, rfl, hfeed, hread⟩ := feed_line hline []
    have hstep := hread.1 comma hcomma
    rw [List.nil_append] at hstep
    rw [feed_append hfeed, feed_cons hstep, feed_nil]

/-- The machine never accepts the end of input as a token. -/
theorem feed_stop_ne_ok {m : Machine} {stop : Token} (hstop : stop.kind = .eof) :
    feed {} (tokens ++ [stop]) ≠ .ok m := by
  intro h
  obtain ⟨m', _, hlast⟩ := foldlM_append_eq_ok.1 h
  obtain ⟨m'', hstep, _⟩ := bind_eq_ok.1 hlast
  unfold step at hstep
  split at hstep <;> simp [hstop] at hstep

/-- The calls that are open by the grammar are those that the machine has open. -/
theorem openCalls_iff {m : Machine} {calls : List BegunCall} (h : feed {} tokens = .ok m) :
    OpenCalls calls tokens ↔ calls = m.place.begun := by
  constructor
  · rintro (⟨keys, before, current, rfl, hkeys, hopen⟩ | ⟨_, line, stop, rfl, hstop, _⟩)
    · obtain ⟨place, hplace, rfl⟩ := feed_openInKey hopen
      rw [feed_append (feed_keysBefore hkeys), hplace] at h
      cases h
      rfl
    · exact absurd h (feed_stop_ne_ok hstop)
  · rintro rfl
    obtain ⟨before, current, rfl, hkeys, hplace⟩ := reads_of_feed h
    exact Or.inl ⟨m.keys, before, current, rfl, hkeys, hplace.openInKey⟩

end Machine

/-- After the end of input no call is open. -/
theorem openCalls_stop_iff {calls : List BegunCall} {tokens : List Token} {stop : Token}
    (h : Sentence tokens) (hstop : stop.kind = .eof) :
    OpenCalls calls (tokens ++ [stop]) ↔ calls = [] := by
  constructor
  · rintro (⟨keys, before, current, heq, hkeys, hopen⟩ | ⟨hnil, _⟩)
    · obtain ⟨place, hplace, _⟩ := Machine.feed_openInKey hopen
      have hfeed : Machine.feed {} (tokens ++ [stop]) = .ok ⟨place, keys⟩ := by
        rw [heq, Machine.feed_append (Machine.feed_keysBefore hkeys), hplace]
      exact absurd hfeed (Machine.feed_stop_ne_ok hstop)
    · exact hnil
  · rintro rfl
    exact Or.inr ⟨rfl, tokens, stop, rfl, hstop, h⟩

end Outline

/-- The call that a frame stands for. -/
def CallFrame.begun (frame : CallFrame) : Outline.BegunCall :=
  ⟨frame.name, frame.args⟩

/-- How many frames there are at a stage when `depth` brackets are open: none between keys, and none
yet for the call whose name comes after the last bracket. -/
def CheckStage.frameCount (depth : Nat) : CheckStage → Nat
  | .key | .keyName | .afterKey => 0
  | .argument | .afterArgument => depth + 1
  | .callName | .nestedName => depth

namespace Staged

/-- What the checker remembers when `done` has been read. Frames are innermost first, so `outer` holds
the frames around a frame. -/
structure Mirrors (t : Tables) (done : List Token) (c : Checker) : Prop where
  depth : (c.depth : Int) = openBrackets (spelling done)
  limit : c.depth ≤ 64
  count : c.frames.length = c.stage.frameCount c.depth
  nested : ∀ inner frame outer, c.frames = inner ++ frame :: outer →
    (frame.nested = false ↔ outer = [])
  shape : ∀ frame ∈ c.frames, t.registry.lookup frame.name.value = some frame.shape
  calls : ∀ calls, Outline.OpenCalls calls done ↔ calls = c.frames.map CallFrame.begun

/-- The checker and the grammar have accepted `done`, and the checker is now `c`. The tokens that the
staged parser shows them are those of the trimmed line and, at last, the end of input. -/
inductive Accepts {σ : Type} (e : Outline.Engine σ) (t : Tables) (line : String) :
    List Token → Checker → Prop
  | tokens {done rest : List Token} {st : State σ}
      (hlex : e.lex (Text.trim line.toList) = .ok (done ++ rest))
      (hrun : done.foldlM (step e t (Text.indent line.toList) (Text.trim line.toList).length)
        ⟨{}, e.start⟩ = .ok st) :
      Accepts e t line done st.checker
  | stop {tokens : List Token} {st : State σ} {c : Checker}
      {outline : List Outline.Key × Outline.Key}
      (hlex : e.lex (Text.trim line.toList) = .ok tokens)
      (hrun : tokens.foldlM (step e t (Text.indent line.toList) (Text.trim line.toList).length)
        ⟨{}, e.start⟩ = .ok st)
      (hcheck : st.checker.check t (Text.indent line.toList)
        (.stop (Text.trim line.toList).length) = .ok c)
      (hfinish : e.finish st.reader (.stop (Text.trim line.toList).length) = .ok outline) :
      Accepts e t line (tokens ++ [.stop (Text.trim line.toList).length]) c

/-! ## Stacks that match -/

namespace StackMatches

variable {t : Tables} {begun : Nat} {calls : List Direct.OpenCall} {frames : List CallFrame}
  {outlines : List Outline.OpenCall}

theorem length_eq (h : StackMatches t begun calls frames outlines) :
    frames.length = calls.length := by
  induction h with
  | nil begun => rfl
  | cons _ _ _ _ ih => rw [List.length_cons, List.length_cons, ih]

theorem lookup_eq (h : StackMatches t begun calls frames outlines) :
    ∀ frame ∈ frames, t.registry.lookup frame.name.value = some frame.shape := by
  induction h with
  | nil begun => simp
  | cons head _ _ _ ih =>
    refine List.forall_mem_cons.2 ⟨?_, ih⟩
    rw [head.frame_name, head.frame_shape]
    exact head.lookup

/-- Only the outermost call is not nested. -/
theorem nested_iff (h : StackMatches t begun calls frames outlines) (inner : List CallFrame)
    (frame : CallFrame) (outer : List CallFrame) (hframes : frames = inner ++ frame :: outer) :
    frame.nested = false ↔ outer = [] := by
  induction h generalizing inner with
  | nil begun => simp at hframes
  | @cons begun call calls first frames outline outlines head count nested tail ih =>
    cases inner with
    | nil =>
      obtain ⟨rfl, rfl⟩ := List.cons.inj hframes
      have hlen := tail.length_eq
      rw [nested, Bool.not_eq_false', List.isEmpty_iff_length_eq_zero, ← hlen,
        List.length_eq_zero_iff]
    | cons _ inner => exact ih inner (List.cons.inj hframes).2

theorem map_begun (h : StackMatches t begun calls frames outlines) :
    frames.map CallFrame.begun = Outline.begunCalls begun outlines := by
  induction h with
  | nil begun => rfl
  | @cons begun call calls frame frames outline outlines head count _ _ ih =>
    have hargs := resolveArguments_length head.resolved
    have hframe : frame.begun = ⟨outline.name, outline.args.length + begun⟩ := by
      unfold CallFrame.begun
      rw [head.frame_name, head.outline_name, count, hargs]
    rw [List.map_cons, ih, hframe, Outline.begunCalls]

end StackMatches

namespace StageMatches

variable {t : Tables} {stage : Direct.Stage} {c : Checker} {place : Outline.Place}

/-- The open calls of the direct parser, the frames and the open calls of the machine are one stack. -/
theorem exists_stack (h : StageMatches t stage c place) :
    ∃ begun outlines, StackMatches t begun stage.calls c.frames outlines ∧
      place.begun = Outline.begunCalls begun outlines := by
  cases h with
  | start _ hframes _ | afterComma _ hframes _ _ | keyName _ hframes _ =>
    rw [hframes]
    exact ⟨0, [], .nil 0, rfl⟩
  | argument _ _ hstack | afterArgument _ hstack => exact ⟨0, _, hstack, rfl⟩
  | opened _ hstack | named _ _ hstack => exact ⟨1, _, hstack, rfl⟩

theorem length_calls (h : StageMatches t stage c place) :
    stage.calls.length = c.stage.frameCount stage.parents.length := by
  cases h with
  | start hstage _ _ | afterComma hstage _ _ _ | keyName hstage _ _ | argument hstage _ _
  | afterArgument hstage _ | opened hstage _ | named hstage _ _ =>
    rw [hstage]
    rfl

end StageMatches

section

variable {t : Tables} {base length : Nat} {s : Direct.State} {c c' : Checker} {m : Outline.Machine}

theorem Simulates.mirrors {done : List Token} (h : Simulates t s ⟨c, m⟩)
    (hfeed : Direct.feed t {} done = .ok s) (hmachine : Outline.Machine.feed {} done = .ok m)
    (hvalues : ∀ token ∈ done, token.kind.Matches token.value.toList) : Mirrors t done c := by
  have hwell := Direct.feed_wellFormed hfeed
  have hdepth : c.depth = s.depth := h.depth
  have hparents : c.depth = s.stage.parents.length := hdepth.trans hwell.depth
  obtain ⟨begun, outlines, hstack, hplace⟩ := h.stage.exists_stack
  refine ⟨?_, ?_, ?_, hstack.nested_iff, hstack.lookup_eq, ?_⟩
  · rw [hdepth]
    exact Direct.depth_of_feed hfeed hvalues
  · rw [hparents]
    exact hwell.limit
  · rw [hstack.length_eq, hparents]
    exact h.stage.length_calls
  · intro calls
    rw [Outline.Machine.openCalls_iff hmachine, hstack.map_begun, ← hplace]

/-- At an accepted end of input the checker drops the last frame, if there is one. -/
theorem Simulates.check_stop {outline : List Outline.Key × Outline.Key}
    (h : Simulates t s ⟨c, m⟩) (hcheck : c.check t base (.stop length) = .ok c')
    (hfinish : m.finish (.stop length) = .ok outline) :
    c'.stage = .afterKey ∧ c'.frames = [] ∧ c'.depth = c.depth := by
  obtain ⟨checked, hon, hc'⟩ := bind_eq_ok.1 hcheck
  cases hc'
  have hmatch := h.stage
  obtain ⟨place, keys⟩ := m
  generalize s.stage = stage at hmatch
  dsimp only at hmatch
  cases hmatch with
  | start | afterComma | argument | opened | named => cases hfinish
  | keyName hstage hframes hpending =>
    simp only [Checker.onToken, hstage] at hon
    obtain ⟨name, _, hrest⟩ := bind_eq_ok.1 hon
    obtain ⟨_, _, hlast⟩ := bind_eq_ok.1 hrest
    cases hlast
    exact ⟨rfl, hframes, rfl⟩
  | @afterArgument _ call outer oc oo hstage hstack =>
    cases oo with
    | cons _ _ => cases hfinish
    | nil =>
      -- the grammar ends the line here, so no call stands around the last one
      obtain ⟨frame, frames, hframes, _, _, hnested, htail⟩ := hstack.frame
      cases htail
      have hlast : c.onToken t base (.stop length) =
          if frame.shape.arity.accepts frame.args then
            .ok { c with frames := [], stage := .afterKey }
          else Checker.reject (.arityMismatch frame.shape.name frame.shape.arity frame.args
            (base + frame.name.offset)) := by
        simp [Checker.onToken, hstage, Checker.onAfterArgument, Token.stop, hframes, hnested,
          Checker.onAfterKey]
      rw [hlast] at hon
      split at hon
      · cases hon
        exact ⟨rfl, rfl, rfl⟩
      · cases hon

end

/-- **The frames mirror the calls that are open.** Whatever part of a line, or all of it with its end,
the checker and the grammar have accepted, the checker's depth is the number of brackets that are open
and its frames are the calls that are open, with their shapes and the arguments begun so far. -/
theorem mirrors_of_accepts {σ : Type} {e : Outline.Engine σ} (he : e.Conforms) {t : Tables}
    {line : String} {done : List Token} {c : Checker} (h : Accepts e t line done c) :
    Mirrors t done c := by
  cases h with
  | @tokens done rest st hlex hrun =>
    have hvalues := ((he.lex_ok _ _).1 hlex).matches_value
    rw [List.forall_mem_append] at hvalues
    obtain ⟨s, m, hfeed, hmachine, hsim⟩ := exists_feed_of_run he hvalues.1 hrun
    exact hsim.mirrors hfeed hmachine hvalues.1
  | @stop tokens st c outline hlex hrun hcheck hfinish =>
    have hvalues := ((he.lex_ok _ _).1 hlex).matches_value
    obtain ⟨s, m, hfeed, hmachine, hsim⟩ := exists_feed_of_run he hvalues hrun
    have hsentence := (he.finish_ok tokens st.reader _ (run_of_foldlM hrun) rfl).1 ⟨outline, hfinish⟩
    obtain ⟨outline', hfinish'⟩ :=
      (Outline.engine_conforms.finish_ok tokens m (.stop _) hmachine rfl).2 hsentence
    have hbefore := hsim.mirrors hfeed hmachine hvalues
    obtain ⟨hstage, hframes, hdepth⟩ := hsim.check_stop hcheck hfinish'
    refine ⟨?_, ?_, ?_, ?_, ?_, ?_⟩
    · rw [hdepth, hbefore.depth, spelling_append]
      simp [Token.stop]
    · rw [hdepth]
      exact hbefore.limit
    · rw [hframes, hstage]
      rfl
    · simp [hframes]
    · simp [hframes]
    · intro calls
      rw [hframes]
      exact Outline.openCalls_stop_iff hsentence rfl

/-- The bracket has begun an argument of `null`, and the second colon has opened the call of `asn`. -/
theorem mirrors_of_accepts_nested :
    let null : Token := ⟨.identifier, "null", 0⟩
    let asn : Token := ⟨.identifier, "asn", 6⟩
    let done : List Token := [null, ⟨.colon, ":", 4⟩, ⟨.lbracket, "[", 5⟩, asn, ⟨.colon, ":", 9⟩]
    ∃ c, Accepts Outline.engine .builtin " null:[asn:ipsource]:none" done c ∧
      c.frames.map CallFrame.begun = [⟨asn, 0⟩, ⟨null, 1⟩] ∧ Mirrors .builtin done c := by
  intro null asn done
  have hlex : Outline.engine.lex (Text.trim " null:[asn:ipsource]:none".toList) =
      .ok (done ++ [⟨.identifier, "ipsource", 10⟩, ⟨.rbracket, "]", 18⟩, ⟨.colon, ":", 19⟩,
        ⟨.identifier, "none", 20⟩]) := by
    cbv
  obtain ⟨st, hrun, hframes⟩ : ∃ st, done.foldlM (step Outline.engine .builtin 1 24)
      ⟨{}, Outline.engine.start⟩ = .ok st ∧
      st.checker.frames.map CallFrame.begun = [⟨asn, 0⟩, ⟨null, 1⟩] :=
    ⟨_, rfl, rfl⟩
  have haccepts : Accepts Outline.engine .builtin " null:[asn:ipsource]:none" done st.checker :=
    .tokens hlex hrun
  exact ⟨st.checker, haccepts, hframes, mirrors_of_accepts Outline.engine_conforms haccepts⟩

end Staged

end TrafficKey
