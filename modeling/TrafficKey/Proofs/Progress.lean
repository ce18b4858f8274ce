import TrafficKey.Proofs.Refusals

/-!
# How far a line is read

Every accepted token counts as one token read, and a refused one as at most one, so a reader that has
read a stretch of its tokens never reports a place inside it. A rejection with less than that read was
therefore decided within the stretch, and whatever follows the stretch was never looked at.
-/

namespace TrafficKey.Direct

variable {t : Tables} {s s' : State} {token : Token} {r : Rejection}

/-! ## One token -/

theorem Step.read_eq (h : Step t s token s') : s'.read = s.read + 1 := by
  cases h <;> rfl

theorem Refusal.le_read (h : Refusal t s token r) : s.read ≤ r.read := by
  cases h with
  | misfit | unknownFunction | unknownName | arity => exact Nat.le_refl _
  | tooDeep | unknownArgument => exact Nat.le_succ _

theorem Shortfall.read_eq {stop : Int} (h : Shortfall t stop s r) : r.read = s.read := by
  cases h <;> rfl

/-! ## Many tokens -/

theorem feed_read {tokens : List Token} (h : feed t s tokens = .ok s') :
    s'.read = s.read + tokens.length := by
  have hstep : ∀ (done : List Token) (m : State) (token : Token) (m' : State),
      m.read = s.read + done.length → step t m token = .ok m' →
        m'.read = s.read + (done ++ [token]).length := by
    intro done m token m' hm hstep
    have hread := (Step.of_step_eq hstep).read_eq
    rw [List.length_append, List.length_singleton]
    omega
  exact foldlM_invariant hstep rfl h

theorem le_read_of_feed_eq_error {tokens : List Token} (h : feed t s tokens = .error r) :
    s.read ≤ r.read := by
  obtain ⟨before, token, after, m, _, hbefore, hstep⟩ := foldlM_eq_error.1 h
  have hm : m.read = s.read + before.length := feed_read hbefore
  have hr := (Refusal.of_step_eq hstep).le_read
  omega

/-- Reading the last token again and again takes nothing back. -/
theorem le_read_exhaust (t : Tables) (token : Token) (s : State) :
    s.read ≤ (exhaust t token s).read := by
  fun_induction exhaust t token s with
  | case1 s r h => exact (Refusal.of_step_eq h).le_read
  | case2 s s' h ih =>
    have hread := (Step.of_step_eq h).read_eq
    omega

/-! ## A list of tokens -/

namespace Reader

variable {reader : Reader} {xs ys : List Token}

/-- A reader that has read some of its tokens stops no earlier than after these. -/
theorem le_read_of_feed {last : Token} (hlast : reader.tokens.getLast? = some last)
    (hbody : reader.body = xs ++ ys)
    (hxs : feed t { read := reader.read, depth := reader.depth } xs = .ok s) :
    s.read ≤ (parse t reader).2.read := by
  have hfeed : feed t { read := reader.read, depth := reader.depth } reader.body = feed t s ys := by
    unfold feed at hxs ⊢
    rw [hbody, List.foldlM_append, hxs]
    rfl
  simp only [parse, hlast, hfeed]
  split
  · rename_i j hys
    exact le_read_of_feed_eq_error hys
  · rename_i s' hys
    have hread := feed_read hys
    have hs : s.read ≤ s'.read := by omega
    split
    · exact Nat.le_trans hs (le_read_exhaust t last s')
    · split
      · rename_i j hfinish
        have hj := (Shortfall.of_finish_eq hfinish).read_eq
        exact Nat.le_trans hs (Nat.le_of_eq hj.symm)
      · exact hs

/-- A refused token ends the reading, whatever comes after it. -/
theorem parse_of_feed_eq_error {last : Token} (hlast : reader.tokens.getLast? = some last)
    (hbody : reader.body = xs ++ ys)
    (hxs : feed t { read := reader.read, depth := reader.depth } xs = .error r) :
    parse t reader = reader.after r := by
  have hfeed : feed t { read := reader.read, depth := reader.depth } reader.body = .error r := by
    unfold feed at hxs ⊢
    rw [hbody, List.foldlM_append, hxs]
    rfl
  simp only [parse, hlast, hfeed]

theorem body_append (h : ∀ token ∈ xs, token.kind ≠ .eof) :
    body { tokens := xs ++ ys } = xs ++ ys.takeWhile (·.kind ≠ .eof) := by
  have hxs : ∀ token ∈ xs, decide (token.kind ≠ .eof) = true := by
    intro token htoken
    exact decide_eq_true (h token htoken)
  exact List.takeWhile_append_of_pos hxs

/-- **A rejection is decided by the tokens read so far.** If the direct parser rejects some tokens and
has not read all of `done` by then, it rejects every other list that begins with `done` in the same
way: with the same diagnostic, as many tokens read and as many brackets open. It does not matter
whether either list has an end of input. -/
theorem parse_append_of_read_lt {t : Tables} {done rest rest' : List Token} {e : Halt}
    {reader : Reader} (hdone : ∀ token ∈ done, token.kind ≠ .eof)
    (h : parse t { tokens := done ++ rest } = (.error e, reader))
    (hread : reader.read < done.length) :
    parse t { tokens := done ++ rest' } =
      (.error e, { tokens := done ++ rest', read := reader.read, depth := reader.depth }) := by
  have hlast : ∀ more, ∃ last, (done ++ more).getLast? = some last := by
    intro more
    have hne : done ++ more ≠ [] := by
      intro hnil
      simp [(List.append_eq_nil_iff.1 hnil).1] at hread
    exact ⟨_, List.getLast?_eq_some_getLast hne⟩
  obtain ⟨last, hlast₁⟩ := hlast rest
  obtain ⟨last', hlast₂⟩ := hlast rest'
  cases hfeed : feed t {} done with
  | ok s =>
    -- then the parser has read all of `done` when it stops
    have hs := feed_read hfeed
    have hle : s.read ≤ reader.read := by
      simpa [h] using le_read_of_feed hlast₁ (body_append hdone) hfeed
    simp only [Nat.zero_add] at hs
    omega
  | error r =>
    rw [parse_of_feed_eq_error hlast₁ (body_append hdone) hfeed] at h
    rw [parse_of_feed_eq_error hlast₂ (body_append hdone) hfeed]
    cases h
    rfl

/-- The second argument of `asn` is rejected at the comma after it, which is not read, whether the line
ends there or goes on with a bracket that closes nothing. -/
theorem parse_append_of_read_lt_arity :
    let done : List Token :=
      [⟨.identifier, "asn", 0⟩, ⟨.colon, ":", 3⟩, ⟨.identifier, "x", 4⟩, ⟨.colon, ":", 5⟩,
        ⟨.identifier, "y", 6⟩, ⟨.comma, ",", 7⟩]
    parse .builtin { tokens := done ++ [.stop 8] } =
        (.error (.rejected (.arityMismatch "asn" (.exact 1) 2 0)),
          { tokens := done ++ [.stop 8], read := 5 }) ∧
      parse .builtin { tokens := done ++ [⟨.rbracket, "]", 8⟩, .stop 9] } =
        (.error (.rejected (.arityMismatch "asn" (.exact 1) 2 0)),
          { tokens := done ++ [⟨.rbracket, "]", 8⟩, .stop 9], read := 5 }) := by
  intro done
  have h : parse .builtin { tokens := done ++ [.stop 8] } =
      (.error (.rejected (.arityMismatch "asn" (.exact 1) 2 0)),
        { tokens := done ++ [.stop 8], read := 5 }) := by
    rfl
  exact ⟨h, parse_append_of_read_lt (by decide) h (by decide)⟩

end Reader

end TrafficKey.Direct
