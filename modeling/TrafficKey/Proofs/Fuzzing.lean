import TrafficKey.Fuzz.Run
import TrafficKey.Proofs.Agreement
import TrafficKey.Proofs.Drawing
import TrafficKey.Proofs.Lossless

/-!
# Fuzzing finds nothing

The two parsers agree on every line and read every text of a definition again, so a check never shows
anything wrong. A run is a number of turns, each of which tries a line and may add it to the corpus. What
one turn keeps is what a whole run keeps: nothing is found, each line is counted once, the seeds stay at
the front of the corpus, and the corpus stays within its limit.
-/

namespace TrafficKey

/-! ## Verdicts -/

/-- The text of a definition that was read is read as that definition. -/
theorem Direct.parse_text_of_parse {t : Tables} {line : String} {d : Definition}
    (h : parse t line = .ok d) : parse t d.text = .ok d := by
  rw [parse_eq_readTrimmed, mapError_eq_ok_iff] at h
  have htext : d.text.toList = Text.trim line.toList := text_of_readTrimmed h
  obtain ⟨tokens, hscan, _⟩ := bind_eq_ok.1 h
  have htiles := scan_eq_ok_iff.1 (mapError_eq_ok_iff.1 hscan)
  rw [parse_eq_readTrimmed, htext, trim_of_not_isBlank htiles.not_isBlank, h]
  rfl

/-- The wording of a diagnostic is no part of its kind and place. -/
theorem Diagnostic.of_unworded_eq {d d' : Diagnostic} (h : d.unworded = d'.unworded) :
    d.kind = d'.kind ∧ d.offset? = d'.offset? := by
  have hkind : ∀ d : Diagnostic, d.unworded.kind = d.kind := fun d => by cases d <;> rfl
  have hoffset : ∀ d : Diagnostic, d.unworded.offset? = d.offset? := fun d => by cases d <;> rfl
  rw [← hkind d, ← hoffset d, h, hkind, hoffset]
  exact ⟨rfl, rfl⟩

namespace Fuzz

theorem Verdict.same_refl (v : Verdict) : v.same v = true := by
  cases v with
  | accepted d => exact Key.sameAll_refl d.keys
  | rejected kind offset => simp [Verdict.same]

/-- What the direct parser says about a line. -/
def verdict (line : String) : Verdict :=
  match Direct.parse .builtin line with
  | .ok d => .accepted d
  | .error d => .ofDiagnostic d

theorem readDirect_eq (line : String) : Subject.readDirect line = .verdict (verdict line) := by
  unfold Subject.readDirect verdict
  cases Direct.parse .builtin line <;> rfl

variable {σ : Type} {e : Outline.Engine σ}

/-- The staged parser neither fails nor says anything else. -/
theorem exists_readStaged_eq (he : e.Conforms) (line : String) :
    ∃ staged, (Subject.ofEngine e).readStaged line = .verdict staged ∧
      (verdict line).same staged = true := by
  have hagree := Staged.agree_direct he .builtin line
  unfold Subject.readStaged verdict
  rw [Subject.parseStaged_ofEngine]
  cases hdirect : Direct.parse .builtin line with
  | ok d =>
    obtain ⟨d', hstaged, rfl⟩ := hagree.exists_ok hdirect
    rw [hstaged]
    exact ⟨_, rfl, Key.sameAll_refl d.keys⟩
  | error d =>
    obtain ⟨f, hstaged, hcause⟩ := hagree.exists_error hdirect
    rw [hstaged]
    cases f with
    | rejected d' =>
      have hsame : d'.unworded = d.unworded := by
        simpa [Staged.SameCause, Staged.Failure.unworded] using hcause
      obtain ⟨hkind, hoffset⟩ := Diagnostic.of_unworded_eq hsame
      refine ⟨_, rfl, ?_⟩
      simp [Verdict.ofDiagnostic, Verdict.same, hkind, hoffset]
    | longNumber => simp [Staged.SameCause, Staged.Failure.unworded] at hcause
    | unchecked fault => simp [Staged.SameCause, Staged.Failure.unworded] at hcause
    | unresolved name => simp [Staged.SameCause, Staged.Failure.unworded] at hcause

/-! ## One check -/

namespace Fuzzer

variable {f : Fuzzer}

/-- The fuzzer with a line counted. -/
def counted (f : Fuzzer) (line : String) : Fuzzer :=
  match verdict line with
  | .accepted _ => { f with accepted := f.accepted + 1 }
  | .rejected _ _ => { f with rejected := f.rejected + 1 }

/-- Counting a line changes one of the two counts and nothing else. -/
theorem counted_eq (f : Fuzzer) (line : String) :
    ∃ accepted rejected, f.counted line = { f with accepted, rejected } ∧
      accepted + rejected = f.accepted + f.rejected + 1 := by
  unfold counted
  cases verdict line with
  | accepted d => exact ⟨f.accepted + 1, f.rejected, rfl, by omega⟩
  | rejected kind offset => exact ⟨f.accepted, f.rejected + 1, rfl, by omega⟩

theorem counted_findings (f : Fuzzer) (line : String) : (f.counted line).findings = f.findings := by
  obtain ⟨accepted, rejected, hcounted, -⟩ := f.counted_eq line
  rw [hcounted]

/-- Calls that are not rehearsed leave the fuzzer as it is. -/
theorem callDirect_eq (h : f.subject = .ofEngine e) (line : String) :
    f.callDirect line = (.verdict (verdict line), f) := by
  unfold callDirect
  rw [h]
  change (Subject.readDirect line, { f with subject := .ofEngine e }) = _
  rw [readDirect_eq, ← h]

theorem exists_callStaged_eq (he : e.Conforms) (h : f.subject = .ofEngine e) (line : String) :
    ∃ staged, f.callStaged line = (.verdict staged, f) ∧ (verdict line).same staged = true := by
  obtain ⟨staged, hread, hsame⟩ := exists_readStaged_eq he line
  refine ⟨staged, ?_, hsame⟩
  unfold callStaged
  rw [h]
  change ((Subject.ofEngine e).readStaged line, { f with subject := .ofEngine e }) = _
  rw [hread, ← h]

theorem compare_eq {line : String} {first second staged : Verdict}
    (hsecond : first.same second = true) (hstaged : first.same staged = true) :
    f.compare line first second staged = .ok f := by
  unfold compare recordIf
  rw [hsecond, hstaged]
  rfl

/-- An accepted definition is read again as it was. -/
theorem count_eq (h : f.subject = .ofEngine e) (line : String) :
    f.count line (verdict line) = .ok (f.counted line) := by
  unfold counted
  cases hverdict : verdict line with
  | rejected kind offset => rfl
  | accepted d =>
    have hread : Direct.parse .builtin line = .ok d := by
      unfold verdict at hverdict
      split at hverdict
      next d' hd' =>
        cases hverdict
        exact hd'
      next => cases hverdict
    have hagain : verdict d.text = .accepted d := by
      unfold verdict
      rw [Direct.parse_text_of_parse hread]
    have hcall := callDirect_eq (f := { f with accepted := f.accepted + 1 }) h d.text
    unfold count
    simp only [hcall, hagain, recordIf, Verdict.same_refl]
    rfl

/-- **A check shows nothing wrong**, whatever the line: it only counts it. -/
theorem check_eq (he : e.Conforms) (h : f.subject = .ofEngine e)
    (hlimit : limitFault? f.settings.timeLimit = none) (line : String) :
    f.check line = .ok (false, f.counted line) := by
  obtain ⟨staged, hstaged, hsame⟩ := exists_callStaged_eq he h line
  -- three calls, two comparisons that record nothing, then the count
  unfold check
  simp only [hlimit, callDirect_eq h, hstaged, withVerdict]
  rw [compare_eq (Verdict.same_refl _) hsame]
  change (do
    let f' ← f.count line (verdict line)
    return (decide (f.findings.length < f'.findings.length), f')) = _
  rw [count_eq h]
  change Except.ok (decide (f.findings.length < (f.counted line).findings.length), _) = _
  rw [counted_findings]
  simp

theorem findings_of_save {finding : Finding} {f' : Fuzzer} (h : f.save finding = .ok f') :
    f'.findings = f.findings := by
  unfold save at h
  split at h
  · cases h
    rfl
  · dsimp only at h
    split at h
    · cases h
    · cases h
      split <;> rfl

theorem findings_of_record {finding : Finding} {f' : Fuzzer} (h : f.record finding = .ok f') :
    ∀ recorded ∈ f'.findings, recorded ∈ f.findings ∨ recorded = finding := by
  unfold record at h
  dsimp only at h
  split at h
  · cases h
    exact fun _ => Or.inl
  · rw [findings_of_save h]
    simp

/-- If the time limit of a line cannot be set, that is all that a check can find. -/
theorem findings_of_check {line : String} {showed : Bool} {f' : Fuzzer} (he : e.Conforms)
    (h : f.subject = .ofEngine e) (hcheck : f.check line = .ok (showed, f')) :
    ∀ finding ∈ f'.findings, finding ∈ f.findings ∨ finding.category = .crash := by
  cases hlimit : limitFault? f.settings.timeLimit with
  | none =>
    rw [check_eq he h hlimit] at hcheck
    cases hcheck
    rw [counted_findings]
    exact fun _ => Or.inl
  | some crash =>
    unfold check report at hcheck
    simp only [hlimit] at hcheck
    cases hrecord : f.record (crashOn line crash) with
    | error abort =>
      rw [hrecord] at hcheck
      cases hcheck
    | ok recorded =>
      rw [hrecord] at hcheck
      cases hcheck
      intro finding hfinding
      rcases findings_of_record hrecord finding hfinding with hold | rfl
      · exact Or.inl hold
      · exact Or.inr rfl

end Fuzzer

/-! ## The corpus -/

namespace Run

/-- A line that a run may try next: a generated one, or one from the corpus after up to four
mutations. -/
def TriedFrom (corpus : List String) (text : String) : Prop :=
  LineText text ∨ ∃ start ∈ corpus, ∃ n ≤ 4, MutatedTimes n start text

theorem nextLine_triedFrom (corpus : Corpus) : (nextLine corpus).Always (TriedFrom corpus.val) := by
  unfold nextLine
  refine .bind .thousandth ?_
  intro strategy _
  refine .ite (fun _ => ?_) fun _ => .ite (fun _ => ?_) fun _ => ?_
  · exact line_lineText.imp fun _ => Or.inl
  · refine .bind .choose ?_
    intro start hstart
    refine .bind (mutate_changes start) ?_
    rintro mutated ⟨m, hchange⟩
    refine .bind (.between (by decide)) ?_
    intro more hmore
    refine (mutateTimes_mutatedTimes more mutated).imp fun text htext => Or.inr ?_
    exact ⟨start, hstart, more + 1, by omega, .more hchange htext⟩
  · exact Gen.Always.choose.imp fun text htext => Or.inr ⟨text, htext, 0, by decide, .none text⟩

/-- What a line may do to the corpus: nothing, or it is added while there is room, or it is added and a
line behind the seeds is removed, perhaps the same one. -/
inductive CorpusStep (text : String) (corpus : List String) : List String → Prop
  | kept : CorpusStep text corpus corpus
  | added (room : corpus.length < corpusLimit) : CorpusStep text corpus (corpus ++ [text])
  | replaced {i : Nat} (full : corpusLimit ≤ corpus.length) (noSeed : seedCorpus.length ≤ i)
      (inside : i < (corpus ++ [text]).length) :
      CorpusStep text corpus ((corpus ++ [text]).eraseIdx i)

theorem grow_corpusStep (corpus : Corpus) (text : String) :
    (grow corpus text).Always fun corpus' => CorpusStep text corpus.val corpus'.val := by
  have hlength : (corpus.val ++ [text]).length = corpus.val.length + 1 := List.length_append
  have hseeds : seedCorpus.length < corpusLimit := by decide
  unfold grow
  refine .dite ?_ ?_
  · intro hfull
    rw [hlength] at hfull
    -- there are lines behind the seeds, as the seeds alone do not fill the corpus
    refine .bind (.between (by omega)) ?_
    intro i hi
    exact .pure (.replaced (by omega) hi.1 (by omega))
  · intro hroom
    rw [hlength] at hroom
    exact .pure (.added (by omega))

theorem keep_corpusStep (corpus : Corpus) (text : String) (showed : Bool) :
    (keep corpus text showed).Always fun corpus' => CorpusStep text corpus.val corpus'.val := by
  unfold keep
  refine .ite (fun _ => grow_corpusStep corpus text) fun _ => .bind .chance fun _ _ => ?_
  exact .ite (fun _ => grow_corpusStep corpus text) fun _ => .pure .kept

namespace CorpusStep

variable {text : String} {corpus corpus' : List String}

/-- No seed is removed. -/
theorem seeds (h : CorpusStep text corpus corpus') (hseeds : seedCorpus <+: corpus) :
    seedCorpus <+: corpus' := by
  obtain ⟨rest, rfl⟩ := hseeds
  cases h with
  | kept => exact List.prefix_append _ _
  | added room =>
    rw [List.append_assoc]
    exact List.prefix_append _ _
  | replaced full noSeed inside =>
    rw [List.append_assoc, List.eraseIdx_append_of_length_le noSeed]
    exact List.prefix_append _ _

theorem length_le (h : CorpusStep text corpus corpus') (hlimit : corpus.length ≤ corpusLimit) :
    corpus'.length ≤ corpusLimit := by
  cases h with
  | kept => exact hlimit
  | added room =>
    rw [List.length_append, List.length_singleton]
    omega
  | replaced full noSeed inside =>
    rw [List.length_eraseIdx_of_lt inside, List.length_append, List.length_singleton]
    omega

end CorpusStep

/-! ## One turn -/

/-- Prints the summary of a run in which every line is reported, now and then. -/
def report (r : Run) : Except Abort Run :=
  if r.fuzzer.settings.verbose && r.fuzzer.iterations % summaryEvery = 0 then r.printSummary
  else .ok r

/-- The time of the run is not used up. -/
def InTime (limits : Limits) (r : Run) : Prop :=
  ∀ r', r.timeUsed limits ≠ .ok (true, r')

/-- One turn of the loop: neither the lines nor the time are used up, and a line is tried. -/
def Turn (limits : Limits) (r r' : Run) : Prop :=
  r.linesUsed limits = false ∧ ∃ waited tried, r.timeUsed limits = .ok (false, waited) ∧
    waited.tryOne = .ok tried ∧ tried.report = .ok r'

/-- So many turns of the loop. -/
inductive Turns (limits : Limits) (r : Run) : Nat → Run → Prop
  | none : Turns limits r 0 r
  | next {k : Nat} {s s' : Run} (turns : Turns limits r k s) (turn : Turn limits s s') :
      Turns limits r (k + 1) s'

variable {limits : Limits} {r r' : Run} {k : Nat}

theorem loop_of_turn (h : Turn limits r r') (fuel : Nat) :
    loop limits (fuel + 1) r = loop limits fuel r' := by
  obtain ⟨hlines, waited, tried, htime, htry, hreport⟩ := h
  rw [loop, hlines, htime]
  simp only [orInterrupted, Bool.false_eq_true, if_false, htry]
  unfold report at hreport
  change (if _ then _ else _) = _
  split at hreport
  next hverbose => rw [if_pos hverbose, hreport]
  next hverbose =>
    cases hreport
    rw [if_neg hverbose]

theorem loop_of_turns (h : Turns limits r k r') (fuel : Nat) :
    loop limits (k + fuel) r = loop limits fuel r' := by
  induction h generalizing fuel with
  | none => rw [Nat.zero_add]
  | next turns turn ih =>
    rw [Nat.add_assoc, Nat.add_comm 1, ih, loop_of_turn turn]

theorem loop_of_linesUsed (h : r.linesUsed limits = true) (fuel : Nat) :
    loop limits fuel r = .ok (.over r) := by
  cases fuel with
  | zero => rfl
  | succ fuel => rw [loop, if_pos h]

/-- What holds of a run after `k` turns: its parsers are not rehearsed, its time limit can be set, it is
not interrupted, it has found nothing and counted every line, and its corpus begins with the seeds and is
within its limit. -/
structure Healthy (e : Outline.Engine σ) (k : Nat) (r : Run) : Prop where
  subject : r.fuzzer.subject = .ofEngine e
  limit : Fuzzer.limitFault? r.fuzzer.settings.timeLimit = none
  uninterrupted : r.clock.interruptAt = none
  findings : r.fuzzer.findings = []
  iterations : r.fuzzer.iterations = k
  counted : r.fuzzer.accepted + r.fuzzer.rejected = k
  seeds : seedCorpus <+: r.corpus.val
  corpus : r.corpus.val.length ≤ corpusLimit

/-- A clock that is not interrupted can be read. -/
theorem exists_read_eq {c : Clock} (h : c.interruptAt = none) :
    ∃ now c', c.read = .ok (now, c') ∧ c'.interruptAt = none := by
  unfold Clock.read
  rw [h, if_neg (by simp)]
  exact ⟨_, _, rfl, rfl⟩

namespace Healthy

/-- Looking at the time changes the clock only. -/
theorem timeUsed (h : Healthy e k r) (limits : Limits) :
    ∃ used c, r.timeUsed limits = .ok (used, { r with clock := c }) ∧
      Healthy e k { r with clock := c } := by
  unfold Run.timeUsed
  cases r.endTime? limits with
  | none => exact ⟨false, r.clock, rfl, h⟩
  | some endTime =>
    obtain ⟨now, c, hread, hc⟩ := exists_read_eq h.uninterrupted
    rw [hread]
    exact ⟨_, c, rfl, { h with uninterrupted := hc }⟩

/-- Printing the summary changes the clock and the output only. -/
theorem printSummary (h : Healthy e k r) :
    ∃ c text, r.printSummary = .ok { r with clock := c, fuzzer := r.fuzzer.print text } ∧
      Healthy e k { r with clock := c, fuzzer := r.fuzzer.print text } := by
  unfold Run.printSummary Run.summary
  by_cases hstarted : r.started == 0.0
  · rw [if_pos hstarted]
    exact ⟨r.clock, _, rfl, { h with }⟩
  · obtain ⟨now, c, hread, hc⟩ := exists_read_eq h.uninterrupted
    rw [if_neg hstarted, hread]
    exact ⟨c, _, rfl, { h with uninterrupted := hc }⟩

theorem report (h : Healthy e k r) :
    ∃ r', r.report = .ok r' ∧ Healthy e k r' ∧ r'.tried = r.tried ∧ r'.corpus = r.corpus := by
  unfold Run.report
  split
  · obtain ⟨c, text, hprint, hnext⟩ := h.printSummary
    exact ⟨_, hprint, hnext, rfl, rfl⟩
  · exact ⟨r, rfl, h, rfl, rfl⟩

/-- Trying a line counts it and may add it to the corpus. -/
theorem tryOne (he : e.Conforms) (h : Healthy e k r) :
    ∃ r' text, r.tryOne = .ok r' ∧ Healthy e (k + 1) r' ∧ TriedFrom r.corpus.val text ∧
      r'.tried = text :: r.tried ∧ CorpusStep text r.corpus.val r'.corpus.val := by
  obtain ⟨text, draws, hline⟩ : ∃ text draws, nextLine r.corpus r.draws = (text, draws) :=
    ⟨_, _, rfl⟩
  obtain ⟨corpus, draws', hkeep⟩ :
      ∃ corpus draws', keep r.corpus text false draws = (corpus, draws') := ⟨_, _, rfl⟩
  have htried : TriedFrom r.corpus.val text := by
    have hnext := nextLine_triedFrom r.corpus r.draws
    rw [hline] at hnext
    exact hnext
  have hcorpus : CorpusStep text r.corpus.val corpus.val := by
    have hstep := keep_corpusStep r.corpus text false draws
    rw [hkeep] at hstep
    exact hstep
  let fuzzer : Fuzzer := { r.fuzzer with iterations := r.fuzzer.iterations + 1 }
  have hcheck : fuzzer.check text = .ok (false, fuzzer.counted text) :=
    Fuzzer.check_eq (f := fuzzer) he h.subject h.limit text
  refine ⟨{ r with
    fuzzer := fuzzer.counted text, draws := draws', corpus, tried := text :: r.tried },
    text, ?_, ?_, htried, rfl, hcorpus⟩
  · unfold Run.tryOne
    simp only [hline]
    change (fuzzer.check text >>= _) = _
    rw [hcheck]
    simp only [bind, Except.bind, hkeep]
    rfl
  · have hseeds := hcorpus.seeds h.seeds
    have hlength := hcorpus.length_le h.corpus
    obtain ⟨accepted, rejected, hcounted, hsum⟩ := fuzzer.counted_eq text
    rw [hcounted]
    refine ⟨h.subject, h.limit, h.uninterrupted, h.findings, congrArg (· + 1) h.iterations, ?_,
      hseeds, hlength⟩
    change accepted + rejected = k + 1
    rw [hsum, ← h.counted]

/-- There is a next turn as long as neither the lines nor the time are used up. -/
theorem exists_turn (he : e.Conforms) (h : Healthy e k r) (hlines : r.linesUsed limits = false)
    (htime : r.InTime limits) :
    ∃ r' text, Turn limits r r' ∧ Healthy e (k + 1) r' ∧ TriedFrom r.corpus.val text ∧
      r'.tried = text :: r.tried ∧ CorpusStep text r.corpus.val r'.corpus.val := by
  obtain ⟨used, c, hused, hwaited⟩ := h.timeUsed limits
  cases used with
  | true => exact absurd hused (htime _)
  | false =>
    obtain ⟨tried, text, htry, hhealthy, hfrom, htext, hstep⟩ := hwaited.tryOne he
    obtain ⟨r', hreport, hnext, hsame, hcorpus⟩ := hhealthy.report
    refine ⟨r', text, ⟨hlines, _, tried, hused, htry, hreport⟩, hnext, hfrom, ?_, ?_⟩
    · rw [hsame, htext]
    · rw [hcorpus]
      exact hstep

end Healthy

theorem Turn.unique {s : Run} (h : Turn limits r r') (h' : Turn limits r s) : r' = s := by
  obtain ⟨-, waited, tried, htime, htry, hreport⟩ := h
  obtain ⟨-, waited', tried', htime', htry', hreport'⟩ := h'
  rw [htime] at htime'
  cases htime'
  rw [htry] at htry'
  cases htry'
  rw [hreport] at hreport'
  cases hreport'
  rfl

/-- What a turn keeps, and what it does to the corpus. -/
theorem Turn.healthy (he : e.Conforms) (h : Turn limits r r') (hr : Healthy e k r) :
    Healthy e (k + 1) r' ∧ ∃ text, TriedFrom r.corpus.val text ∧ r'.tried = text :: r.tried ∧
      CorpusStep text r.corpus.val r'.corpus.val := by
  have hin : r.InTime limits := by
    obtain ⟨-, waited, _, htime, _⟩ := h
    intro s hs
    rw [htime] at hs
    cases hs
  -- the turn that exists is this one
  obtain ⟨s, text, hturn, hnext, hfrom, htext, hstep⟩ := hr.exists_turn he h.1 hin
  cases h.unique hturn
  exact ⟨hnext, text, hfrom, htext, hstep⟩

theorem Turns.healthy (he : e.Conforms) (h : Turns limits r k r') (hr : Healthy e 0 r) :
    Healthy e k r' := by
  induction h with
  | none => exact hr
  | next _ turn ih => exact (turn.healthy he ih).1

/-! ## Whole runs -/

/-- A run of a new fuzzer, the staged parser with the given engine. -/
def fresh (e : Outline.Engine σ) (settings : Settings) (draws : Draws) (clock : Clock) : Run :=
  { fuzzer := { settings, subject := .ofEngine e }, draws, clock }

theorem linesUsed_eq {n : Nat} (h : Healthy e k r) (hlines : limits.lines = some (n : Int)) :
    r.linesUsed limits = decide (n ≤ k) := by
  unfold linesUsed
  rw [hlines, h.iterations]
  simp

/-- A run goes on until its lines are used up. -/
theorem exists_turns {n : Nat} (he : e.Conforms) (h : Healthy e 0 r) (hlines : limits.lines = some (n : Int))
    (htime : ∀ k s, Turns limits r k s → s.InTime limits) : ∀ k ≤ n, ∃ s, Turns limits r k s
  | 0, _ => ⟨r, .none⟩
  | k + 1, hk => by
    obtain ⟨s, hturns⟩ := exists_turns he h hlines htime k (by omega)
    have hs := hturns.healthy he h
    have hmore : s.linesUsed limits = false := by
      rw [linesUsed_eq hs hlines, decide_eq_false_iff_not]
      omega
    obtain ⟨s', _, hturn, _⟩ := hs.exists_turn he hmore (htime k s hturns)
    exact ⟨s', .next hturns hturn⟩

theorem exists_start {settings : Settings} {clock : Clock} (e : Outline.Engine σ) (draws : Draws)
    (hlimit : Fuzzer.limitFault? settings.timeLimit = none) (hclock : clock.interruptAt = none) :
    ∃ started, (fresh e settings draws clock).start = .ok started ∧ Healthy e 0 started := by
  obtain ⟨now, c, hread, hc⟩ := exists_read_eq hclock
  have hcorpus : seedCorpus.length ≤ corpusLimit := by decide
  unfold start fresh
  simp only
  rw [hread]
  refine ⟨_, rfl, ?_⟩
  split
  · exact ⟨rfl, hlimit, hc, rfl, rfl, rfl, List.prefix_refl _, hcorpus⟩
  · exact ⟨rfl, hlimit, hc, rfl, rfl, rfl, List.prefix_refl _, hcorpus⟩

theorem Healthy.exists_finish (h : Healthy e k r) :
    ∃ final, r.finish = .ok final ∧ Healthy e k final := by
  unfold finish
  split
  · have hprint : Healthy e k (r.print (rule '=')) := { h with }
    obtain ⟨c, text, hsummary, hfinal⟩ := hprint.printSummary
    exact ⟨_, hsummary, hfinal⟩
  · exact ⟨r, rfl, h⟩

/-- **Fuzzing finds nothing.** Whatever engine of the grammar the staged parser has, and whatever is
drawn, a run of a new fuzzer over `n` lines ends if it is neither interrupted nor out of time. It has then
found nothing, has taken `n` turns and has counted `n` lines. After each turn the corpus begins with the
seeds and holds at most 500 lines; a turn tries a generated line or a mutated one of the corpus, and
removes no seed. Every mutation works on every text, and a check of any line shows neither a disagreement
nor a text that is read otherwise. -/
theorem run_finds_nothing (e : Outline.Engine σ) (he : e.Conforms) (settings : Settings)
    (draws : Draws) (clock : Clock) (limits : Limits) (n : Nat)
    (hlimit : Fuzzer.limitFault? settings.timeLimit = none) (hclock : clock.interruptAt = none)
    (hlines : limits.lines = some (n : Int))
    (htime : ∀ started k s, (fresh e settings draws clock).start = .ok started →
      Turns limits started k s → s.InTime limits) :
    (∃ started last final, (fresh e settings draws clock).start = .ok started ∧
      Turns limits started n last ∧ last.finish = .ok final ∧
      (fresh e settings draws clock).run limits = .ok final ∧
      final.fuzzer.findings = [] ∧ final.fuzzer.iterations = n ∧
      final.fuzzer.accepted + final.fuzzer.rejected = n ∧
      ∀ k s, Turns limits started k s →
        seedCorpus <+: s.corpus.val ∧ s.corpus.val.length ≤ 500 ∧
          ∀ s', Turn limits s s' → ∃ text, TriedFrom s.corpus.val text ∧
            s'.tried = text :: s.tried ∧ CorpusStep text s.corpus.val s'.corpus.val) ∧
      (∀ draws, LineText (line draws).1) ∧
      (∀ (m : Mutation) (s : String) draws, m.Changes s (m.apply s draws).1) ∧
      ∀ (f : Fuzzer) (text : String), f.subject = .ofEngine e →
        (Fuzzer.limitFault? f.settings.timeLimit = none →
          f.check text = .ok (false, f.counted text)) ∧
        ∀ showed f', f.check text = .ok (showed, f') →
          ∀ finding ∈ f'.findings, finding ∈ f.findings ∨ finding.category = .crash := by
  refine ⟨?_, line_lineText, fun m s => m.apply_changes s, ?_⟩
  · obtain ⟨started, hstart, hhealthy⟩ := exists_start e draws hlimit hclock
    have hin := fun k s => htime started k s hstart
    obtain ⟨last, hturns⟩ := exists_turns he hhealthy hlines hin n (Nat.le_refl n)
    have hlast := hturns.healthy he hhealthy
    obtain ⟨final, hfinish, hfinal⟩ := hlast.exists_finish
    have hloop : loop limits (started.bound limits) started = .ok (.over last) := by
      have hused : last.linesUsed limits = true := by
        rw [linesUsed_eq hlast hlines, decide_eq_true (Nat.le_refl n)]
      have hbound : started.bound limits = n + 1 := by
        unfold bound
        rw [hlines]
        rfl
      rw [hbound, loop_of_turns hturns, loop_of_linesUsed hused]
    refine ⟨started, last, final, hstart, hturns, hfinish, ?_, hfinal.findings, hfinal.iterations,
      hfinal.counted, ?_⟩
    · unfold run
      rw [hstart]
      change (loop limits (started.bound limits) started >>= _) = _
      rw [hloop]
      exact hfinish
    · intro k s hs
      have hk := hs.healthy he hhealthy
      exact ⟨hk.seeds, hk.corpus, fun s' hturn => (hturn.healthy he hk).2⟩
  · intro f text hsubject
    exact ⟨fun hf => Fuzzer.check_eq he hsubject hf text,
      fun showed f' hcheck => Fuzzer.findings_of_check he hsubject hcheck⟩

theorem run_finds_nothing_thousand :
    let run := fresh Outline.engine { verbose := true } (.cycle [3, 141, 592, 653, 589, 793]) {}
    Outline.engine.Conforms ∧ ∃ final, run.run { lines := some 1000 } = .ok final ∧
      final.fuzzer.findings = [] ∧ final.fuzzer.iterations = 1000 ∧
      final.fuzzer.accepted + final.fuzzer.rejected = 1000 := by
  intro run
  have hlimit : Fuzzer.limitFault? ({ verbose := true } : Settings).timeLimit = none := by decide
  have htime : ∀ started k s, run.start = .ok started →
      Turns { lines := some 1000 } started k s → s.InTime { lines := some 1000 } := by
    -- a run without a limit of minutes does not look at the clock
    intro started k s _ _ r hused
    cases hused
  obtain ⟨⟨_, _, final, _, _, _, hrun, hfindings, hiterations, hcount, _⟩, _⟩ :=
    run_finds_nothing Outline.engine Outline.engine_conforms { verbose := true }
      (.cycle [3, 141, 592, 653, 589, 793]) {} { lines := some 1000 } 1000 hlimit rfl rfl htime
  exact ⟨Outline.engine_conforms, final, hrun, hfindings, hiterations, hcount⟩

end Run

end Fuzz

end TrafficKey
