import TrafficKey.Proofs.Simulation

/-!
# The two parsers agree

The staged parser is given its lexer and its grammar as an engine. Every engine that conforms to the
grammar reads a line as the machine does, wording apart, and the machine's staged parser follows the
direct parser. So the two parsers agree on every line.
-/

namespace TrafficKey

namespace Staged

/-! ## Every conforming engine reads as the machine does -/

section

variable {σ : Type} {e : Outline.Engine σ}

/-- The checkers are equal, and the two engines have read the same tokens. -/
def Alike (e : Outline.Engine σ) (st : State Outline.Machine) (st' : State σ) : Prop :=
  st.checker = st'.checker ∧
    ∃ tokens, Outline.engine.run tokens = .ok st.reader ∧ e.run tokens = .ok st'.reader

/-- Failures that differ in wording only. -/
def SameFailure (f f' : Failure) : Prop :=
  f.unworded = f'.unworded

theorem lex_eq_scan (he : e.Conforms) (cs : List Char) : e.lex cs = scan 0 cs := by
  cases hs : scan 0 cs with
  | ok tokens => exact (he.lex_ok cs tokens).2 (scan_eq_ok_iff.1 hs)
  | error u =>
    cases hl : e.lex cs with
    | ok tokens =>
      have hscan := scan_eq_ok_iff.2 ((he.lex_ok cs tokens).1 hl)
      rw [hs] at hscan
      cases hscan
    | error v => rw [(he.lex_error cs v hl).unique (scan_eq_error hs)]

theorem sameFailure_of_token {base length : Nat} {u v : Outline.Unexpected}
    (h : u.token = v.token) :
    SameFailure (.rejected (u.fault.diagnostic base length))
      (.rejected (v.fault.diagnostic base length)) := by
  simp [SameFailure, Failure.unworded, Outline.Unexpected.fault, Outline.Fault.diagnostic, h,
    Diagnostic.unworded]

theorem run_snoc {tokens : List Token} {token : Token} {r r' : σ} (hr : e.run tokens = .ok r)
    (hstep : e.step r token = .ok r') : e.run (tokens ++ [token]) = .ok r' := by
  unfold Outline.Engine.run at hr ⊢
  rw [List.foldlM_append, hr]
  change (e.step r token >>= _) = _
  rw [hstep]
  rfl

theorem step_alike (he : e.Conforms) {t : Tables} {base length : Nat} {token : Token}
    {st : State Outline.Machine} {st' : State σ} (h : Alike e st st') (hk : token.kind ≠ .eof) :
    Agree (Alike e) SameFailure (step Outline.engine t base length st token)
      (step e t base length st' token) := by
  rcases st with ⟨c, m⟩
  rcases st' with ⟨c', r⟩
  rcases h with ⟨rfl, tokens, hm, hr⟩
  dsimp only at hm hr ⊢
  cases hcheck : Checker.check t base c token with
  | error f =>
    rw [step_of_fault hcheck, step_of_fault hcheck]
    rfl
  | ok c' =>
    rw [step_of_check hcheck, step_of_check hcheck]
    have hsame := (Outline.engine_conforms.step_ok tokens m token hm hk).trans
      (he.step_ok tokens r token hr hk).symm
    cases hms : Outline.engine.step m token with
    | ok m' =>
      rcases hsame.1 ⟨m', hms⟩ with ⟨r', hrs⟩
      rw [hrs]
      exact ⟨rfl, _, run_snoc hm hms, run_snoc hr hrs⟩
    | error u =>
      cases hrs : e.step r token with
      | ok r' =>
        rcases hsame.2 ⟨r', hrs⟩ with ⟨m', hms'⟩
        rw [hms] at hms'
        cases hms'
      | error v =>
        refine sameFailure_of_token ?_
        rw [Outline.engine_conforms.step_error tokens m token u hm hms,
          he.step_error tokens r token v hr hrs]

theorem finish_alike (he : e.Conforms) {t : Tables} {base length : Nat}
    {st : State Outline.Machine} {st' : State σ} (h : Alike e st st') :
    Agree (fun o o' => o = o') SameFailure (finish Outline.engine t base length st)
      (finish e t base length st') := by
  rcases st with ⟨c, m⟩
  rcases st' with ⟨c', r⟩
  rcases h with ⟨rfl, tokens, hm, hr⟩
  dsimp only at hm hr ⊢
  let stop := Token.stop length
  cases hcheck : Checker.check t base c stop with
  | error f =>
    rw [finish_of_fault hcheck, finish_of_fault hcheck]
    rfl
  | ok c' =>
    rw [finish_of_check hcheck, finish_of_check hcheck]
    have hsame := (Outline.engine_conforms.finish_ok tokens m stop hm rfl).trans
      (he.finish_ok tokens r stop hr rfl).symm
    cases hms : Outline.engine.finish m stop with
    | ok o =>
      rcases hsame.1 ⟨o, hms⟩ with ⟨o', hrs⟩
      have hline := Outline.engine_conforms.finish_outline tokens m stop o hm hms
      have hline' := he.finish_outline tokens r stop o' hr hrs
      have hkeys : o = o' := by
        have hparts := hline.unique hline'
        simpa [Prod.ext_iff] using hparts
      rw [hrs]
      exact hkeys
    | error u =>
      cases hrs : e.finish r stop with
      | ok o' =>
        rcases hsame.2 ⟨o', hrs⟩ with ⟨o, hms'⟩
        rw [hms] at hms'
        cases hms'
      | error v =>
        refine sameFailure_of_token ?_
        rw [Outline.engine_conforms.finish_error tokens m stop u hm hms,
          he.finish_error tokens r stop v hr hrs]

/-- Every conforming engine gets as far into the tokens as the machine. -/
theorem run_alike (he : e.Conforms) (t : Tables) (base length : Nat) {tokens : List Token}
    (hk : ∀ token ∈ tokens, token.kind ≠ .eof) :
    Agree (Alike e) SameFailure
      (tokens.foldlM (step Outline.engine t base length) ⟨{}, Outline.engine.start⟩)
      (tokens.foldlM (step e t base length) ⟨{}, e.start⟩) := by
  have hstart : Alike e ⟨{}, Outline.engine.start⟩ ⟨{}, e.start⟩ := ⟨rfl, [], rfl, rfl⟩
  have hstep : ∀ token ∈ tokens, ∀ st st', Alike e st st' →
      Agree (Alike e) SameFailure (step Outline.engine t base length st token)
        (step e t base length st' token) :=
    fun token htoken _ _ h => step_alike he h (hk token htoken)
  exact Agree.foldlM hstep hstart

theorem readTokens_alike (he : e.Conforms) (t : Tables) (base length : Nat) {tokens : List Token}
    (hk : ∀ token ∈ tokens, token.kind ≠ .eof) :
    Agree (fun o o' => o = o') SameFailure (readTokens Outline.engine t base length tokens)
      (readTokens e t base length tokens) :=
  (run_alike he t base length hk).bind fun _ _ h => finish_alike he h

/-- The checker does not change what the engine reads. -/
theorem run_of_foldlM {t : Tables} {base length : Nat} {tokens : List Token} {st : State σ}
    (h : tokens.foldlM (step e t base length) ⟨{}, e.start⟩ = .ok st) :
    e.run tokens = .ok st.reader := by
  have hstep : ∀ (done : List Token) (st : State σ) (token : Token) (st' : State σ),
      e.run done = .ok st.reader → step e t base length st token = .ok st' →
        e.run (done ++ [token]) = .ok st'.reader := by
    intro done st token st' hrun hstep
    obtain ⟨c, _, hreader⟩ := bind_eq_ok.1 hstep
    obtain ⟨r, hr, hst⟩ := bind_eq_ok.1 hreader
    cases hst
    exact run_snoc hrun (mapError_eq_ok_iff.1 hr)
  have hstart : e.run [] = .ok e.start := rfl
  exact foldlM_invariant hstep hstart h

theorem kind_ne_eof_of_matches {tokens : List Token}
    (hvalues : ∀ token ∈ tokens, token.kind.Matches token.value.toList) :
    ∀ token ∈ tokens, token.kind ≠ .eof := by
  intro token htoken hk
  have hvalue := hvalues token htoken
  rw [hk] at hvalue
  exact hvalue

/-- On the tokens of a line that is not blank, the direct parser and an engine agree. -/
theorem readAll_agree_resolve (he : e.Conforms) (t : Tables) (base length : Nat)
    {tokens : List Token} (hne : tokens ≠ [])
    (hvalues : ∀ token ∈ tokens, token.kind.Matches token.value.toList) :
    Agree (fun d d' => d = d') (Rejects base) (Direct.readAll t tokens length)
      (readTokens e t base length tokens >>= resolve t) := by
  have hk := kind_ne_eof_of_matches hvalues
  have hmachine := readAll_agree t base length hne hvalues
  have hengine := readTokens_alike he t base length hk
  have hboth : Agree (fun d outline => resolve t outline = .ok d) (Rejects base)
      (Direct.readAll t tokens length) (readTokens e t base length tokens) := by
    refine (hmachine.trans hengine).imp ?_ ?_
    · rintro d outline _ ⟨_, hres, rfl⟩
      exact hres
    · rintro r f ⟨f', hcause, hsame⟩
      have hcause' : f'.unworded = .rejected (r.diagnostic.shift base).unworded := hcause
      have hsame' : f'.unworded = f.unworded := hsame
      exact hsame'.symm.trans hcause'
  refine hboth.bind_right ?_
  intro d outline hres
  rw [hres]
  rfl

/-- A line that is not blank is cut into tokens, which are read and then resolved. -/
theorem parseWith_of_tiles (he : e.Conforms) (t : Tables) {line : String} {tokens : List Token}
    (hblank : Text.trim line.toList ≠ []) (htiles : Tiles 0 (Text.trim line.toList) tokens) :
    parseWith e t line =
      readTokens e t (Text.indent line.toList) (Text.trim line.toList).length tokens >>=
        resolve t := by
  unfold parseWith readTokens
  simp only [hblank, if_false, lex_eq_scan he, scan_eq_ok_iff.2 htiles]
  rw [bind_assoc]
  rfl

/-! ## How far both parsers get -/

section

variable {t : Tables} {tokens : List Token}

theorem run_agree (t : Tables) (base length : Nat)
    (hvalues : ∀ token ∈ tokens, token.kind.Matches token.value.toList) :
    Agree (Simulates t) (Rejects base) (Direct.feed t {} tokens)
      (tokens.foldlM (step Outline.engine t base length) ⟨{}, Outline.engine.start⟩) := by
  have hstep : ∀ token ∈ tokens, ∀ s st, Simulates t s st →
      Agree (Simulates t) (Rejects base) (Direct.step t s token)
        (step Outline.engine t base length st token) :=
    fun token htoken _ _ h => step_agree h (hvalues token htoken)
  exact Agree.foldlM hstep (simulates_start t)

/-- Where the direct parser gets, the staged parser gets. -/
theorem exists_run_of_feed {s : Direct.State} (he : e.Conforms) (base length : Nat)
    (hvalues : ∀ token ∈ tokens, token.kind.Matches token.value.toList)
    (h : Direct.feed t {} tokens = .ok s) :
    ∃ st m, tokens.foldlM (step e t base length) ⟨{}, e.start⟩ = .ok st ∧
      Simulates t s ⟨st.checker, m⟩ := by
  obtain ⟨⟨c, m⟩, hmachine, hsim⟩ := (run_agree t base length hvalues).exists_ok h
  obtain ⟨st, hrun, hsame, _⟩ :=
    (run_alike he t base length (kind_ne_eof_of_matches hvalues)).exists_ok hmachine
  exact ⟨st, m, hrun, hsame ▸ hsim⟩

/-- Where the staged parser gets, the direct parser and the machine get. -/
theorem exists_feed_of_run {base length : Nat} {st : State σ} (he : e.Conforms)
    (hvalues : ∀ token ∈ tokens, token.kind.Matches token.value.toList)
    (h : tokens.foldlM (step e t base length) ⟨{}, e.start⟩ = .ok st) :
    ∃ s m, Direct.feed t {} tokens = .ok s ∧ Outline.Machine.feed {} tokens = .ok m ∧
      Simulates t s ⟨st.checker, m⟩ := by
  obtain ⟨⟨c, m⟩, hmachine, hsame, _⟩ :=
    (run_alike he t base length (kind_ne_eof_of_matches hvalues)).exists_ok_left h
  obtain ⟨s, hfeed, hsim⟩ := (run_agree t base length hvalues).exists_ok_left hmachine
  exact ⟨s, m, hfeed, run_of_foldlM hmachine, hsame ▸ hsim⟩

end

end

end Staged

/-- The direct parser and the staged one agree on every line. -/
theorem Staged.agree_direct {σ : Type} {e : Outline.Engine σ} (he : e.Conforms) (t : Tables)
    (line : String) :
    Agree (fun d d' => d = d') SameCause (Direct.parse t line) (parseWith e t line) := by
  rw [Direct.parse_eq_readTrimmed]
  unfold Direct.readTrimmed Staged.parseWith
  by_cases hblank : Text.trim line.toList = []
  · simp only [hblank, if_true, scan_nil]
    rfl
  · simp only [hblank, if_false, Staged.lex_eq_scan he]
    cases hscan : scan 0 (Text.trim line.toList) with
    | error u => rfl
    | ok tokens =>
      have htiles := scan_eq_ok_iff.1 hscan
      have hne : tokens ≠ [] := by
        rintro rfl
        exact hblank htiles.spelling_eq.symm
      have hread := Staged.readAll_agree_resolve he t (Text.indent line.toList)
        (Text.trim line.toList).length hne htiles.matches_value
      change Agree _ _ (((Direct.readAll t tokens _).mapError _).mapError _) _
      rw [agree_mapError_left, agree_mapError_left]
      have hbind : (do
          let s ← tokens.foldlM (Staged.step e t (Text.indent line.toList)
            (Text.trim line.toList).length) ⟨{}, e.start⟩
          let outline ← Staged.finish e t (Text.indent line.toList)
            (Text.trim line.toList).length s
          Staged.resolve t outline) =
          (Staged.readTokens e t (Text.indent line.toList) (Text.trim line.toList).length tokens >>=
            Staged.resolve t) := by
        unfold Staged.readTokens
        rw [bind_assoc]
      exact hbind ▸ hread

/-- **The two parsers agree on every line.** For all tables and every engine that cuts lines into
tokens and follows the grammar as asked, both parsers give the same definition, or both give the same
diagnostic up to the wording of what a malformed line should have had. -/
theorem parse_agree {σ : Type} (e : Outline.Engine σ) (he : e.Conforms) (t : Tables)
    (line : String) :
    Agree (fun d d' => d = d') Staged.SameCause (Direct.parse t line)
      (Staged.parseWith e t line) :=
  Staged.agree_direct he t line

/-- The machine is such an engine; here the second bracket closes nothing. -/
theorem parse_agree_unmatched_bracket :
    Outline.engine.Conforms ∧
      Agree (fun d d' => d = d') Staged.SameCause
        (Direct.parse .builtin "  or:[country:ipsource]]:ip6ttl")
        (Staged.parse .builtin "  or:[country:ipsource]]:ip6ttl") :=
  ⟨Outline.engine_conforms, parse_agree Outline.engine Outline.engine_conforms .builtin _⟩

end TrafficKey
