import TrafficKey.Parse.Outline
import TrafficKey.Proofs.Runs
import TrafficKey.Proofs.Scanning

/-!
# The grammar and the machine

The grammar of a line says which tokens an outline is written as:

    line      := key (',' key)*
    key       := name | name arguments
    arguments := (':' argument)+
    argument  := name | '[' name arguments ']'

The machine accepts a token exactly when the tokens so far can be continued to a sentence, and at the
end of input it gives the outline of the sentence. Any engine that does the same gives the same
outlines, since the machine shows that a sentence has only one.
-/

namespace TrafficKey.Outline

/-! ## Sentences -/

/-- Arguments, none or more, and the tokens they are written as. -/
inductive Arguments : List Argument → List Token → Prop
  | nil : Arguments [] []
  | bare {colon name : Token} {args : List Argument} {tokens : List Token}
      (hcolon : colon.kind = .colon) (hname : name.kind = .identifier)
      (tail : Arguments args tokens) :
      Arguments (.bare name :: args) (colon :: name :: tokens)
  | nested {colon opening name closing : Token} {inner args : List Argument}
      {body tokens : List Token}
      (hcolon : colon.kind = .colon) (hopening : opening.kind = .lbracket)
      (hname : name.kind = .identifier) (hne : inner ≠ []) (hinner : Arguments inner body)
      (hclosing : closing.kind = .rbracket) (tail : Arguments args tokens) :
      Arguments (.nested name inner :: args)
        (colon :: opening :: name :: (body ++ closing :: tokens))

/-- A key and the tokens it is written as. -/
inductive IsKey : Key → List Token → Prop
  | bare {name : Token} (hname : name.kind = .identifier) : IsKey (.bare name) [name]
  | call {name : Token} {args : List Argument} {tokens : List Token}
      (hname : name.kind = .identifier) (hne : args ≠ []) (hargs : Arguments args tokens) :
      IsKey (.call name args) (name :: tokens)

/-- The keys of a line and the tokens they are written as. -/
inductive IsLine : List Key → List Token → Prop
  | one {key : Key} {tokens : List Token} (hkey : IsKey key tokens) : IsLine [key] tokens
  | more {key : Key} {comma : Token} {keys : List Key} {tokens rest : List Token}
      (hkey : IsKey key tokens) (hcomma : comma.kind = .comma) (tail : IsLine keys rest) :
      IsLine (key :: keys) (tokens ++ comma :: rest)

/-- The tokens are a line of the grammar. -/
def Sentence (tokens : List Token) : Prop :=
  ∃ keys, IsLine keys tokens

/-- The tokens can be continued to a line of the grammar. -/
def Viable (tokens : List Token) : Prop :=
  ∃ rest, Sentence (tokens ++ rest)

theorem Arguments.append {args more : List Argument} {tokens rest : List Token}
    (h : Arguments args tokens) (hmore : Arguments more rest) :
    Arguments (args ++ more) (tokens ++ rest) := by
  induction h with
  | nil => exact hmore
  | bare hcolon hname _ ih => exact .bare hcolon hname ih
  | nested hcolon hopening hname hne hinner hclosing _ _ ih =>
    simpa using Arguments.nested hcolon hopening hname hne hinner hclosing ih

theorem IsLine.append {keys more : List Key} {comma : Token} {tokens rest : List Token}
    (h : IsLine keys tokens) (hcomma : comma.kind = .comma) (hmore : IsLine more rest) :
    IsLine (keys ++ more) (tokens ++ comma :: rest) := by
  induction h with
  | one hkey => exact .more hkey hcomma hmore
  | more hkey hc _ ih => simpa using IsLine.more hkey hc ih

/-! ## Engines -/

/-- The engine's state after the tokens. -/
def Engine.run {σ : Type} (e : Engine σ) (tokens : List Token) : Except Unexpected σ :=
  tokens.foldlM e.step e.start

/-- What a line-reading engine promises. It cuts a line into longest terminals and stops at the first
character that starts none. It rejects a token exactly when the tokens so far cannot be continued to a
sentence, names the token it rejects, and at the end of input gives the outline of the sentence. -/
structure Engine.Conforms {σ : Type} (e : Engine σ) : Prop where
  lex_ok : ∀ cs tokens, e.lex cs = .ok tokens ↔ Tiles 0 cs tokens
  lex_error : ∀ cs u, e.lex cs = .error u → FirstUnmatched 0 cs u
  step_ok : ∀ tokens s token, e.run tokens = .ok s → token.kind ≠ .eof →
    ((∃ s', e.step s token = .ok s') ↔ Viable (tokens ++ [token]))
  step_error : ∀ tokens s token u, e.run tokens = .ok s → e.step s token = .error u →
    u.token = token
  finish_ok : ∀ tokens s stop, e.run tokens = .ok s → stop.kind = .eof →
    ((∃ outline, e.finish s stop = .ok outline) ↔ Sentence tokens)
  finish_outline : ∀ tokens s stop outline, e.run tokens = .ok s →
    e.finish s stop = .ok outline → IsLine (outline.1 ++ [outline.2]) tokens
  finish_error : ∀ tokens s stop u, e.run tokens = .ok s → e.finish s stop = .error u →
    u.token = stop

/-! ## The machine follows every sentence -/

namespace Machine

/-- The machine after the tokens. -/
def feed (m : Machine) (tokens : List Token) : Except Unexpected Machine :=
  tokens.foldlM step m

@[simp] theorem feed_nil (m : Machine) : m.feed [] = .ok m := rfl

theorem feed_cons {m m' : Machine} {token : Token} (h : m.step token = .ok m')
    (tokens : List Token) : m.feed (token :: tokens) = m'.feed tokens := by
  unfold feed
  rw [List.foldlM_cons, h]
  rfl

theorem feed_append {m m' : Machine} {tokens : List Token} (h : m.feed tokens = .ok m')
    (rest : List Token) : m.feed (tokens ++ rest) = m'.feed rest := by
  unfold feed at h ⊢
  rw [List.foldlM_append, h]
  rfl

/-- Where a colon starts the next argument of `call`, the arguments are read as after an argument. -/
theorem feed_eq_afterArgument {m : Machine} {call : OpenCall} {outer : List OpenCall}
    {keys : List Key} {args : List Argument} {tokens : List Token}
    (hcolon : ∀ colon : Token, colon.kind = .colon →
      m.step colon = .ok ⟨.argument call outer, keys⟩)
    (hne : args ≠ []) (h : Arguments args tokens) :
    m.feed tokens = Machine.feed ⟨.afterArgument call outer, keys⟩ tokens := by
  have hafter : ∀ colon : Token, colon.kind = .colon →
      step ⟨.afterArgument call outer, keys⟩ colon = .ok ⟨.argument call outer, keys⟩ := by
    intro colon hc
    simp [step, hc]
  cases h with
  | nil => exact absurd rfl hne
  | bare hc _ _ | nested hc _ _ _ _ _ _ => rw [feed_cons (hcolon _ hc), feed_cons (hafter _ hc)]

theorem feed_arguments {args : List Argument} {tokens : List Token} (h : Arguments args tokens)
    (call : OpenCall) (outer : List OpenCall) (keys : List Key) :
    Machine.feed ⟨.afterArgument call outer, keys⟩ tokens =
      .ok ⟨.afterArgument { call with args := call.args ++ args } outer, keys⟩ := by
  induction h generalizing call outer with
  | nil => simp
  | @bare colon name args tokens hcolon hname _ ih =>
    have hnext : step ⟨.afterArgument call outer, keys⟩ colon = .ok ⟨.argument call outer, keys⟩ := by
      simp [step, hcolon]
    have hbare : step ⟨.argument call outer, keys⟩ name =
        .ok ⟨.afterArgument (call.push (.bare name)) outer, keys⟩ := by
      simp [step, hname]
    rw [feed_cons hnext, feed_cons hbare, ih]
    simp [OpenCall.push]
  | @nested colon opening name closing inner args body tokens hcolon hopening hname hne hinner
      hclosing _ ihinner ih =>
    have hnext : step ⟨.afterArgument call outer, keys⟩ colon = .ok ⟨.argument call outer, keys⟩ := by
      simp [step, hcolon]
    have hopen : step ⟨.argument call outer, keys⟩ opening = .ok ⟨.callStart call outer, keys⟩ := by
      simp [step, hopening]
    have hnamed : step ⟨.callStart call outer, keys⟩ name =
        .ok ⟨.callName name call outer, keys⟩ := by
      simp [step, hname]
    -- the first colon comes after the name, the others after an argument
    have hfirst : ∀ c : Token, c.kind = .colon → step ⟨.callName name call outer, keys⟩ c =
        .ok ⟨.argument ⟨name, []⟩ (call :: outer), keys⟩ := by
      intro c hc
      simp [step, hc]
    have hbody : Machine.feed ⟨.callName name call outer, keys⟩ body =
        .ok ⟨.afterArgument ⟨name, inner⟩ (call :: outer), keys⟩ := by
      rw [feed_eq_afterArgument hfirst hne hinner, ihinner]
      simp
    have hclose : step ⟨.afterArgument ⟨name, inner⟩ (call :: outer), keys⟩ closing =
        .ok ⟨.afterArgument (call.push (.nested name inner)) outer, keys⟩ := by
      simp [step, hclosing]
    rw [feed_cons hnext, feed_cons hopen, feed_cons hnamed, feed_append hbody, feed_cons hclose, ih]
    simp [OpenCall.push]

/-- The machine has read a whole key, which a comma or the end of input would end. -/
def KeyRead (keys : List Key) (key : Key) (m : Machine) : Prop :=
  (∀ comma : Token, comma.kind = .comma → m.step comma = .ok ⟨.keyStart, keys ++ [key]⟩) ∧
    ∀ stop, m.finish stop = .ok (keys, key)

theorem feed_key {key : Key} {tokens : List Token} (h : IsKey key tokens) (keys : List Key) :
    ∃ m, Machine.feed ⟨.keyStart, keys⟩ tokens = .ok m ∧ KeyRead keys key m := by
  cases h with
  | @bare name hname =>
    have hstart : step ⟨.keyStart, keys⟩ name = .ok ⟨.keyName name, keys⟩ := by
      simp [step, hname]
    refine ⟨⟨.keyName name, keys⟩, ?_, ?_⟩
    · rw [feed_cons hstart, feed_nil]
    · exact ⟨fun comma hc => by simp [step, hc], fun stop => rfl⟩
  | @call name args tokens hname hne hargs =>
    have hstart : step ⟨.keyStart, keys⟩ name = .ok ⟨.keyName name, keys⟩ := by
      simp [step, hname]
    have hfirst : ∀ c : Token, c.kind = .colon →
        step ⟨.keyName name, keys⟩ c = .ok ⟨.argument ⟨name, []⟩ [], keys⟩ := by
      intro c hc
      simp [step, hc]
    refine ⟨⟨.afterArgument ⟨name, args⟩ [], keys⟩, ?_, ?_⟩
    · rw [feed_cons hstart, feed_eq_afterArgument hfirst hne hargs, feed_arguments hargs]
      simp
    · exact ⟨fun comma hc => by simp [step, hc], fun stop => rfl⟩

/-- The machine reads every sentence to its end and has its outline there. -/
theorem feed_line {line : List Key} {tokens : List Token} (h : IsLine line tokens)
    (keys : List Key) :
    ∃ m before last, line = before ++ [last] ∧
      Machine.feed ⟨.keyStart, keys⟩ tokens = .ok m ∧ KeyRead (keys ++ before) last m := by
  induction h generalizing keys with
  | @one key tokens hkey =>
    rcases feed_key hkey keys with ⟨m, hm, hread⟩
    exact ⟨m, [], key, rfl, hm, by simpa using hread⟩
  | @more key comma rest tokens more hkey hcomma _ ih =>
    rcases feed_key hkey keys with ⟨m, hm, hread⟩
    rcases ih (keys ++ [key]) with ⟨m', before, last, hline, hm', hread'⟩
    refine ⟨m', key :: before, last, by simp [hline], ?_, by simpa using hread'⟩
    rw [feed_append hm, feed_cons (hread.1 comma hcomma), hm']

end Machine

/-! ## What the machine reads can be continued -/

/-- Calls that are open, innermost first, and the tokens up to the end of what was last read of the
innermost: its name or one of its arguments. -/
inductive Opened : List OpenCall → List Token → Prop
  | top {name : Token} {args : List Argument} {tokens : List Token}
      (hname : name.kind = .identifier) (hargs : Arguments args tokens) :
      Opened [⟨name, args⟩] (name :: tokens)
  | nested {parent : OpenCall} {outer : List OpenCall} {colon opening name : Token}
      {args : List Argument} {before tokens : List Token}
      (hparent : Opened (parent :: outer) before) (hcolon : colon.kind = .colon)
      (hopening : opening.kind = .lbracket) (hname : name.kind = .identifier)
      (hargs : Arguments args tokens) :
      Opened (⟨name, args⟩ :: parent :: outer) (before ++ colon :: opening :: name :: tokens)

namespace Opened

variable {call parent : OpenCall} {outer : List OpenCall} {tokens : List Token}

theorem append (h : Opened (call :: outer) tokens) {args : List Argument} {rest : List Token}
    (hargs : Arguments args rest) :
    Opened ({ call with args := call.args ++ args } :: outer) (tokens ++ rest) := by
  cases h with
  | top hname h => exact .top hname (h.append hargs)
  | nested hparent hcolon hopening hname h =>
    simpa using Opened.nested hparent hcolon hopening hname (h.append hargs)

theorem push_bare (h : Opened (call :: outer) tokens) {colon name : Token}
    (hcolon : colon.kind = .colon) (hname : name.kind = .identifier) :
    Opened (call.push (.bare name) :: outer) (tokens ++ [colon, name]) :=
  h.append (.bare hcolon hname .nil)

/-- A closing bracket makes the innermost call an argument of the call around it. -/
theorem close (h : Opened (call :: parent :: outer) tokens) (hne : call.args ≠ [])
    {closing : Token} (hclosing : closing.kind = .rbracket) :
    Opened (parent.push (.nested call.name call.args) :: outer) (tokens ++ [closing]) := by
  cases h with
  | nested hparent hcolon hopening hname hargs =>
    have harg := Arguments.nested hcolon hopening hname hne hargs hclosing .nil
    simpa [OpenCall.push] using hparent.append harg

theorem isKey (h : Opened [call] tokens) (hne : call.args ≠ []) :
    IsKey (.call call.name call.args) tokens := by
  cases h with
  | top hname hargs => exact .call hname hne hargs

/-- Closing brackets end the key, one for each call around the innermost. -/
theorem completes (h : Opened (call :: outer) tokens) (hne : call.args ≠ []) :
    ∃ rest key, IsKey key (tokens ++ rest) := by
  induction outer generalizing call tokens with
  | nil => exact ⟨[], _, by simpa using h.isKey hne⟩
  | cons parent outer ih =>
    -- the grammar does not look at offsets, so any will do
    let closing : Token := ⟨.rbracket, "]", 0⟩
    have hclosing : closing.kind = .rbracket := rfl
    rcases ih (h.close hne hclosing) (by simp [OpenCall.push]) with ⟨rest, key, hkey⟩
    exact ⟨closing :: rest, key, by simpa using hkey⟩

end Opened

/-- The place stands for these tokens of the current key. -/
def Place.Reads : Place → List Token → Prop
  | .keyStart, tokens => tokens = []
  | .keyName name, tokens => name.kind = .identifier ∧ tokens = [name]
  | .argument call outer, tokens =>
    ∃ before colon, tokens = before ++ [colon] ∧ colon.kind = .colon ∧
      Opened (call :: outer) before
  | .afterArgument call outer, tokens => call.args ≠ [] ∧ Opened (call :: outer) tokens
  | .callStart call outer, tokens =>
    ∃ before colon opening, tokens = before ++ [colon, opening] ∧ colon.kind = .colon ∧
      opening.kind = .lbracket ∧ Opened (call :: outer) before
  | .callName name call outer, tokens => Opened (⟨name, []⟩ :: call :: outer) tokens

/-- From every place some tokens lead to the end of the key. -/
theorem Place.Reads.completes {place : Place} {tokens : List Token} (h : place.Reads tokens) :
    ∃ rest key, IsKey key (tokens ++ rest) := by
  let word : Token := ⟨.identifier, "a", 0⟩
  have hword : word.kind = .identifier := rfl
  let mark : Token := ⟨.colon, ":", 0⟩
  have hmark : mark.kind = .colon := rfl
  cases place with
  | keyStart =>
    cases h
    exact ⟨[word], .bare word, .bare hword⟩
  | keyName name =>
    rcases h with ⟨hname, rfl⟩
    exact ⟨[], .bare name, .bare hname⟩
  | argument call outer =>
    rcases h with ⟨before, colon, rfl, hcolon, hopened⟩
    have hnext := hopened.push_bare hcolon hword
    rcases hnext.completes (by simp [OpenCall.push]) with ⟨rest, key, hkey⟩
    exact ⟨word :: rest, key, by simpa using hkey⟩
  | afterArgument call outer => exact h.2.completes h.1
  | callStart call outer =>
    rcases h with ⟨before, colon, opening, rfl, hcolon, hopening, hopened⟩
    have hargs : Arguments [.bare word] [mark, word] := .bare hmark hword .nil
    have hnext := Opened.nested hopened hcolon hopening hword hargs
    rcases hnext.completes (by simp) with ⟨rest, key, hkey⟩
    exact ⟨word :: mark :: word :: rest, key, by simpa using hkey⟩
  | callName name call outer =>
    have hnext := Opened.push_bare h hmark hword
    rcases hnext.completes (by simp [OpenCall.push]) with ⟨rest, key, hkey⟩
    exact ⟨mark :: word :: rest, key, by simpa using hkey⟩

/-- Keys that were read, and their tokens with a comma after each. -/
def KeysBefore (keys : List Key) (tokens : List Token) : Prop :=
  (keys = [] ∧ tokens = []) ∨
    ∃ line comma, IsLine keys line ∧ comma.kind = .comma ∧ tokens = line ++ [comma]

theorem KeysBefore.isLine {keys : List Key} {key : Key} {before tokens : List Token}
    (h : KeysBefore keys before) (hkey : IsKey key tokens) :
    IsLine (keys ++ [key]) (before ++ tokens) := by
  rcases h with ⟨rfl, rfl⟩ | ⟨line, comma, hline, hcomma, rfl⟩
  · exact .one hkey
  · simpa using hline.append hcomma (.one hkey)

/-- The machine stands for these tokens. -/
def Machine.Reads (m : Machine) (tokens : List Token) : Prop :=
  ∃ before current, tokens = before ++ current ∧ KeysBefore m.keys before ∧ m.place.Reads current

namespace Machine

variable {m m' : Machine} {tokens : List Token}

theorem Reads.viable (h : m.Reads tokens) : Viable tokens := by
  rcases h with ⟨before, current, rfl, hkeys, hplace⟩
  rcases hplace.completes with ⟨rest, key, hkey⟩
  exact ⟨rest, _, by simpa using hkeys.isLine hkey⟩

theorem reads_start : Reads {} [] :=
  ⟨[], [], rfl, Or.inl ⟨rfl, rfl⟩, rfl⟩

/-- A token that stays in the current key is one token more of it. -/
theorem Reads.extend {place : Place} {token : Token} (h : m.Reads tokens)
    (hplace : ∀ current, m.place.Reads current → place.Reads (current ++ [token])) :
    Reads { m with place } (tokens ++ [token]) := by
  rcases h with ⟨before, current, rfl, hkeys, hcurrent⟩
  exact ⟨before, current ++ [token], by simp, hkeys, hplace current hcurrent⟩

/-- A comma after a whole key starts the next key. -/
theorem Reads.endKey {key : Key} {comma : Token} (h : m.Reads tokens)
    (hcomma : comma.kind = .comma)
    (hkey : ∀ current, m.place.Reads current → IsKey key current) :
    Reads ⟨.keyStart, m.keys ++ [key]⟩ (tokens ++ [comma]) := by
  rcases h with ⟨before, current, rfl, hkeys, hcurrent⟩
  have hline := hkeys.isLine (hkey current hcurrent)
  exact ⟨_, [], by simp, Or.inr ⟨_, comma, hline, hcomma, rfl⟩, rfl⟩

/-- Every token that the machine accepts becomes part of what it stands for. -/
theorem Reads.step {token : Token} (h : m.Reads tokens) (hstep : m.step token = .ok m') :
    m'.Reads (tokens ++ [token]) := by
  rcases m with ⟨place, keys⟩
  unfold Machine.step at hstep
  -- at each place the token kinds that are rejected close their case at once
  cases place with
  | keyStart =>
    cases hk : token.kind <;> simp only [hk] at hstep <;> cases hstep
    refine h.extend ?_
    rintro current rfl
    exact ⟨hk, rfl⟩
  | keyName name =>
    cases hk : token.kind <;> simp only [hk] at hstep <;> cases hstep
    · refine h.extend ?_
      rintro current ⟨hname, rfl⟩
      exact ⟨[name], token, rfl, hk, .top hname .nil⟩
    · refine h.endKey hk ?_
      rintro current ⟨hname, rfl⟩
      exact .bare hname
  | argument call outer =>
    cases hk : token.kind <;> simp only [hk] at hstep <;> cases hstep
    · refine h.extend ?_
      rintro current ⟨before, colon, rfl, hcolon, hopened⟩
      refine ⟨by simp [OpenCall.push], ?_⟩
      simpa using hopened.push_bare hcolon hk
    · refine h.extend ?_
      rintro current ⟨before, colon, rfl, hcolon, hopened⟩
      exact ⟨before, colon, token, by simp, hcolon, hk, hopened⟩
  | afterArgument call outer =>
    cases outer with
    | nil =>
      cases hk : token.kind <;> simp only [hk] at hstep <;> cases hstep
      · refine h.extend ?_
        rintro current ⟨_, hopened⟩
        exact ⟨current, token, rfl, hk, hopened⟩
      · refine h.endKey hk ?_
        rintro current ⟨hne, hopened⟩
        exact hopened.isKey hne
    | cons parent rest =>
      cases hk : token.kind <;> simp only [hk] at hstep <;> cases hstep
      · refine h.extend ?_
        rintro current ⟨_, hopened⟩
        exact ⟨current, token, rfl, hk, hopened⟩
      · refine h.extend ?_
        rintro current ⟨hne, hopened⟩
        exact ⟨by simp [OpenCall.push], hopened.close hne hk⟩
  | callStart call outer =>
    cases hk : token.kind <;> simp only [hk] at hstep <;> cases hstep
    refine h.extend ?_
    rintro current ⟨before, colon, opening, rfl, hcolon, hopening, hopened⟩
    have hnext := Opened.nested hopened hcolon hopening hk .nil
    simpa [Place.Reads] using hnext
  | callName name call outer =>
    cases hk : token.kind <;> simp only [hk] at hstep <;> cases hstep
    refine h.extend ?_
    intro current hopened
    exact ⟨current, token, rfl, hk, hopened⟩

theorem Reads.finish {stop : Token} {outline : List Key × Key} (h : m.Reads tokens)
    (hfinish : m.finish stop = .ok outline) : IsLine (outline.1 ++ [outline.2]) tokens := by
  rcases h with ⟨before, current, rfl, hkeys, hplace⟩
  rcases m with ⟨place, keys⟩
  cases place with
  | keyName name =>
    cases hfinish
    rcases hplace with ⟨hname, rfl⟩
    exact hkeys.isLine (.bare hname)
  | afterArgument call outer =>
    cases outer with
    | nil =>
      cases hfinish
      exact hkeys.isLine (hplace.2.isKey hplace.1)
    | cons parent rest => cases hfinish
  | keyStart | argument call outer | callStart call outer | callName name call outer =>
    cases hfinish

theorem reads_of_feed (h : feed {} tokens = .ok m) : m.Reads tokens := by
  have hstep : ∀ done (s : Machine) token s', s.Reads done → s.step token = .ok s' →
      s'.Reads (done ++ [token]) := fun _ _ _ _ hreads hstep => hreads.step hstep
  exact foldlM_invariant hstep reads_start h

/-! ## The machine conforms -/

theorem step_error_token {token : Token} {u : Unexpected} (h : m.step token = .error u) :
    u.token = token := by
  unfold Machine.step at h
  split at h <;> split at h <;> cases h <;> rfl

theorem finish_error_token {stop : Token} {u : Unexpected} (h : m.finish stop = .error u) :
    u.token = stop := by
  unfold Machine.finish at h
  split at h <;> cases h <;> rfl

theorem exists_feed_of_viable (h : Viable tokens) : ∃ m, feed {} tokens = .ok m := by
  rcases h with ⟨rest, line, hline⟩
  rcases feed_line hline [] with ⟨m, _, _, _, hm, _⟩
  rcases foldlM_append_eq_ok.1 hm with ⟨m', hm', _⟩
  exact ⟨m', hm'⟩

end Machine

/-- The scanner and the machine are what is asked of an engine. -/
theorem engine_conforms : engine.Conforms where
  lex_ok := fun _ _ => scan_eq_ok_iff
  lex_error := fun _ _ => scan_eq_error
  step_ok := by
    intro tokens m token hm _
    constructor
    · rintro ⟨m', hm'⟩
      exact ((Machine.reads_of_feed hm).step hm').viable
    · intro hviable
      rcases Machine.exists_feed_of_viable hviable with ⟨m', hm'⟩
      -- the machine is deterministic, so its run over all tokens goes through `m`
      have hlast : m.feed [token] = .ok m' := (Machine.feed_append hm [token]).symm.trans hm'
      rcases bind_eq_ok.1 hlast with ⟨m'', hm'', _⟩
      exact ⟨m'', hm''⟩
  step_error := fun _ _ _ _ _ => Machine.step_error_token
  finish_ok := by
    intro tokens m stop hm _
    constructor
    · rintro ⟨outline, hfinish⟩
      exact ⟨_, (Machine.reads_of_feed hm).finish hfinish⟩
    · rintro ⟨line, hline⟩
      rcases Machine.feed_line hline [] with ⟨m', before, last, _, hm', hread⟩
      have hmm : m = m' := Except.ok.inj (hm.symm.trans hm')
      exact ⟨_, hmm ▸ hread.2 stop⟩
  finish_outline := fun _ _ _ _ hm => (Machine.reads_of_feed hm).finish
  finish_error := fun _ _ _ _ _ => Machine.finish_error_token

/-- A sentence has only one outline. -/
theorem IsLine.unique {line line' : List Key} {tokens : List Token} (h : IsLine line tokens)
    (h' : IsLine line' tokens) : line = line' := by
  rcases Machine.feed_line h [] with ⟨m, before, last, rfl, hm, hread⟩
  rcases Machine.feed_line h' [] with ⟨m', before', last', rfl, hm', hread'⟩
  have hmm : m = m' := Except.ok.inj (hm.symm.trans hm')
  subst hmm
  -- both outlines are what the machine gives at the end of input
  have hout := Except.ok.inj ((hread.2 (Token.stop 0)).symm.trans (hread'.2 (Token.stop 0)))
  have hparts : before = before' ∧ last = last' := by simpa using hout
  rw [hparts.1, hparts.2]

end TrafficKey.Outline
