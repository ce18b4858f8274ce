import TrafficKey.Proofs.Turns
import TrafficKey.Proofs.Wording

/-!
# Reading stops within the list

A reader of tokens never goes past an end of input, so what stands after the first one does not
matter. Without an end of input the last token is read again past the end of the list. That ends too:
of the tokens that have just been read only a closing bracket can be read once more, and each of them
closes a bracket that is open, of which there are at most 64.

What is not a definition is rejected with a diagnostic, if the numbers that the diagnostic has to write can
be written.
-/

namespace TrafficKey.Direct

open Decimal (Fits)

variable {t : Tables} {s s' : State} {token : Token} {j : Rejection}

/-! ## The same token once more -/

theorem Refusal.read_le (h : Refusal t s token j) : j.read ≤ s.read + 1 := by
  cases h with
  | misfit | unknownFunction | unknownName | arity => exact Nat.le_succ _
  | tooDeep | unknownArgument => exact Nat.le_refl _

/-- A refused token counts as read only where a token of its kind can stand. -/
theorem Refusal.read_le_repeats (h : Refusal t s token j) :
    j.read ≤ s.read + repeats token.kind s.stage := by
  cases h with
  | misfit | unknownFunction | unknownName | arity => exact Nat.le_add_right _ _
  | tooDeep hk | unknownArgument hk => simp [repeats, hk]

/-- Of a token that was just read, only a closing bracket can be read again. -/
theorem Step.repeats_le (h : Step t s token s') :
    repeats token.kind s'.stage ≤ s.stage.parents.length := by
  cases h with
  | keyName _ hk | openKey hk | endName hk | literal hk | key hk | openBracket hk
  | nextArgument hk | endComputed hk | nestedName hk | openNested hk => simp [repeats, hk]
  | closeBracket hk => simp [repeats, hk, Stage.parents]

namespace Reader

variable {reader : Reader} {last : Token}

/-! ## Past the end of the list -/

theorem eq_last_of_tokenAt (hlast : reader.tokens.getLast? = some last) {place : Nat}
    (h : reader.tokenAt place = some token) (hplace : reader.tokens.length ≤ place + 1) :
    token = last := by
  rcases Nat.lt_or_ge place reader.tokens.length with hlt | hge
  · have hpred : place = reader.tokens.length - 1 := by omega
    rw [List.getLast?_eq_getElem?, ← hpred] at hlast
    rw [tokenAt_of_getElem? hlast] at h
    exact (Option.some.inj h).symm
  · rw [tokenAt_of_length_le hlast hge] at h
    exact (Option.some.inj h).symm

/-- What has been read past the end of the list, and what can still be read there, is at most one token
for each bracket that may be open. -/
theorem Reaches.read_add_repeats_le (h : Reaches t reader s)
    (hlast : reader.tokens.getLast? = some last) (hread : reader.read < reader.tokens.length)
    (hdepth : reader.depth ≤ maxDepth) (hpast : reader.tokens.length ≤ s.read) :
    s.read + repeats last.kind s.stage ≤ reader.tokens.length + maxDepth := by
  induction h with
  | refl => exact absurd hpast (Nat.not_le_of_lt hread)
  | @tail m s hreaches hturn ih =>
    obtain ⟨token, htoken, -, hstep⟩ := hturn.exists_step
    have hone := hstep.read_eq
    have heq : token = last := eq_last_of_tokenAt hlast htoken (by omega)
    subst heq
    by_cases hbefore : reader.tokens.length ≤ m.read
    · -- the token is read once more
      have hle := ih hbefore
      have hlt := repeats_step hstep.step_eq
      omega
    · -- the list has just been read to its end
      have hrepeats := hstep.repeats_le
      have hopen : m.depth = reader.depth + m.stage.parents.length := Reaches.depthFrom hreaches
      have hlimit := Reaches.depth_le hreaches hdepth
      omega

theorem Reaches.read_le (h : Reaches t reader s) (hne : reader.tokens ≠ [])
    (hread : reader.read < reader.tokens.length) (hdepth : reader.depth ≤ maxDepth) :
    s.read ≤ reader.tokens.length + maxDepth := by
  rcases Nat.lt_or_ge s.read reader.tokens.length with hlt | hge
  · omega
  · have hle := h.read_add_repeats_le (List.getLast?_eq_some_getLast hne) hread hdepth hge
    omega

/-! ## The first end of input -/

/-- How many tokens stand before the first end of input. -/
def firstStop (tokens : List Token) : Nat :=
  tokens.findIdx (·.kind = .eof)

/-- Up to the first end of input, it is the only one. -/
theorem kind_eq_eof_iff (hstop : ∃ stop ∈ reader.tokens, stop.kind = .eof) {place : Nat}
    (hplace : place ≤ firstStop reader.tokens) (h : reader.tokenAt place = some token) :
    token.kind = .eof ↔ place = firstStop reader.tokens := by
  have hlt : firstStop reader.tokens < reader.tokens.length := by
    apply List.findIdx_lt_length_of_exists
    obtain ⟨stop, hmem, hk⟩ := hstop
    exact ⟨stop, hmem, by simpa using hk⟩
  have hinside : place < reader.tokens.length := Nat.lt_of_le_of_lt hplace hlt
  rw [tokenAt_of_getElem? (List.getElem?_eq_getElem hinside)] at h
  cases h
  constructor
  · intro hk
    by_contra hne
    have hnot := List.not_of_lt_findIdx (Nat.lt_of_le_of_ne hplace hne)
    simp [hk] at hnot
  · rintro rfl
    exact of_decide_eq_true (List.findIdx_getElem (w := hlt))

/-- No turn goes past the first end of input. -/
theorem Reaches.read_le_firstStop (h : Reaches t reader s)
    (hstop : ∃ stop ∈ reader.tokens, stop.kind = .eof) (hread : reader.read ≤ firstStop reader.tokens) :
    s.read ≤ firstStop reader.tokens := by
  induction h with
  | refl => exact hread
  | @tail m s _ hturn ih =>
    obtain ⟨token, htoken, hk, hstep⟩ := hturn.exists_step
    have hone := hstep.read_eq
    have hne : m.read ≠ firstStop reader.tokens := fun heq => hk ((kind_eq_eof_iff hstop ih htoken).2 heq)
    omega

/-- An attempt ends no later than at the first end of input. -/
theorem Stops.read_le_firstStop {result : Except Halt Definition × Reader}
    (h : Stops t reader s result) (hstop : ∃ stop ∈ reader.tokens, stop.kind = .eof)
    (hread : s.read ≤ firstStop reader.tokens) : result.2.read ≤ firstStop reader.tokens := by
  cases h with
  | @refused token j htoken hk hstep =>
    have hle := (Refusal.of_step_eq hstep).read_le
    have hne : s.read ≠ firstStop reader.tokens := fun heq =>
      hk ((kind_eq_eof_iff hstop hread htoken).2 heq)
    show j.read ≤ firstStop reader.tokens
    omega
  | short hat hk hfinish =>
    have heq := (Shortfall.of_finish_eq hfinish).read_eq
    exact Nat.le_trans (Nat.le_of_eq heq) hread
  | accepted => exact hread

theorem stop?_append {before rest : List Token} {stop : Token}
    (hbefore : ∀ token ∈ before, token.kind ≠ .eof) (hk : stop.kind = .eof) :
    stop? { tokens := before ++ stop :: rest } = some stop := by
  have hnone : before.find? (·.kind = .eof) = none := by
    rw [List.find?_eq_none]
    intro token htoken
    simpa using hbefore token htoken
  unfold stop?
  simp [List.find?_append, hnone, hk]

/-- What stands after an end of input is never looked at. -/
theorem parse_before_stop {before : List Token} {stop : Token} (t : Tables)
    (hbefore : ∀ token ∈ before, token.kind ≠ .eof) (hk : stop.kind = .eof) (rest : List Token) :
    let result := parse t { tokens := before ++ stop :: rest }
    parse t { tokens := before ++ [stop] } =
      (result.1, { result.2 with tokens := before ++ [stop] }) := by
  have hbody : ∀ more, body { tokens := before ++ stop :: more } = before := by
    intro more
    rw [body_append hbefore, List.takeWhile_cons_of_neg (by simpa using hk), List.append_nil]
  have hlast : ∀ more, ∃ last, (before ++ stop :: more).getLast? = some last := by
    intro more
    exact ⟨_, List.getLast?_eq_some_getLast (by simp)⟩
  obtain ⟨last, hlast₁⟩ := hlast rest
  obtain ⟨last', hlast₂⟩ := hlast []
  simp only [parse, hlast₁, hlast₂, hbody, stop?_append hbefore hk]
  split
  · rfl
  · split <;> rfl

/-- The tokens up to the first end of input. -/
def upToStop (tokens : List Token) : List Token :=
  tokens.take (firstStop tokens + 1)

theorem upToStop_append {before : List Token} {stop : Token}
    (hbefore : ∀ token ∈ before, token.kind ≠ .eof) (hk : stop.kind = .eof) (rest : List Token) :
    upToStop (before ++ stop :: rest) = before ++ [stop] := by
  have hindex : firstStop (before ++ stop :: rest) = before.length := by
    unfold firstStop
    rw [List.findIdx_append, if_neg (by simpa using hbefore), List.findIdx_cons]
    simp [hk]
  unfold upToStop
  rw [hindex, List.take_length_add_append]
  rfl

theorem parse_upToStop (t : Tables) (tokens : List Token) :
    let result := parse t { tokens }
    parse t { tokens := upToStop tokens } = (result.1, { result.2 with tokens := upToStop tokens }) := by
  cases hfind : tokens.find? (·.kind = .eof) with
  | some stop =>
    obtain ⟨hk, before, rest, rfl, hbefore⟩ := List.find?_eq_some_iff_append.1 hfind
    have hbefore : ∀ token ∈ before, token.kind ≠ .eof := by simpa using hbefore
    have hk : stop.kind = .eof := by simpa using hk
    rw [upToStop_append hbefore hk]
    exact parse_before_stop t hbefore hk rest
  | none =>
    -- there is nothing to cut off
    have hall : upToStop tokens = tokens := by
      have hindex : firstStop tokens = tokens.length := by
        unfold firstStop
        rw [List.findIdx_eq_length]
        simpa using hfind
      unfold upToStop
      rw [hindex]
      exact List.take_of_length_le (Nat.le_succ _)
    have htokens := parse_tokens t { tokens }
    rw [hall]
    cases hparse : parse t { tokens } with
    | mk outcome reader =>
      rw [hparse] at htokens
      subst htokens
      rfl

/-! ## Any list of tokens -/

theorem Stops.read_le {result : Except Halt Definition × Reader} (h : Stops t reader s result)
    (hreaches : Reaches t reader s) (hne : reader.tokens ≠ [])
    (hread : reader.read < reader.tokens.length) (hdepth : reader.depth ≤ maxDepth) :
    result.2.read ≤ reader.tokens.length + maxDepth := by
  have hs := hreaches.read_le hne hread hdepth
  cases h with
  | @refused token j htoken _ hstep =>
    show j.read ≤ _
    have hrefused := Refusal.of_step_eq hstep
    rcases Nat.lt_or_ge s.read reader.tokens.length with hlt | hge
    · have hle := hrefused.read_le
      omega
    · have hlast := List.getLast?_eq_some_getLast hne
      have heq := eq_last_of_tokenAt hlast htoken (Nat.le_succ_of_le hge)
      have hle := hrefused.read_le_repeats
      have hbound := hreaches.read_add_repeats_le hlast hread hdepth hge
      rw [heq] at hle
      omega
  | short _ _ hfinish =>
    have heq := (Shortfall.of_finish_eq hfinish).read_eq
    exact Nat.le_trans (Nat.le_of_eq heq) hs
  | accepted => exact hs

/-- Without an end of input, reading can only end at a refused token. -/
theorem Stops.ne_ok {result : Except Halt Definition × Reader} (h : Stops t reader s result)
    (hall : ∀ token ∈ reader.tokens, token.kind ≠ .eof) (d : Definition) : result.1 ≠ .ok d := by
  cases h with
  | refused | short => exact nofun
  | accepted hstop hk => exact absurd hk (hall _ (mem_of_tokenAt hstop))

theorem Stops.ok_or_halted {result : Except Halt Definition × Reader}
    (h : Stops t reader s result) :
    (∃ d, result.1 = .ok d) ∨ (∃ e, result.1 = .error (.rejected e)) ∨
      result.1 = .error .longNumber := by
  cases h with
  | @refused _ j | @short _ j =>
    rcases Halt.ofDiagnostic_eq_or j.diagnostic with hrejected | hlong
    · exact Or.inr (Or.inl ⟨_, congrArg Except.error hrejected⟩)
    · exact Or.inr (Or.inr (congrArg Except.error hlong))
  | accepted => exact Or.inl ⟨_, rfl⟩

/-! ### Numbers that can be written -/

theorem Reaches.writable (h : Reaches t reader s) (ht : t.AritiesFit)
    (htokens : ∀ token ∈ reader.tokens, Fits token.offset) : s.Writable := by
  induction h with
  | refl => exact writable_start _ _
  | tail _ hturn ih =>
    obtain ⟨token, htoken, -, hstep⟩ := hturn.exists_step
    exact hstep.writable ht (htokens token (mem_of_tokenAt htoken)) ih

theorem Stops.ok_or_rejected {result : Except Halt Definition × Reader}
    (h : Stops t reader s result) (hs : s.Writable) (hread : Fits s.read)
    (htokens : ∀ token ∈ reader.tokens, Fits token.offset) :
    (∃ d, result.1 = .ok d) ∨ ∃ e, result.1 = .error (.rejected e) := by
  cases h with
  | @refused token j htoken _ hstep =>
    have hoffset := htokens token (mem_of_tokenAt htoken)
    have hnumbers := (Refusal.of_step_eq hstep).writable hoffset hs hread
    exact Or.inr ⟨_, congrArg Except.error (Halt.ofDiagnostic_of_fits hnumbers)⟩
  | @short stop j hstop _ hfinish =>
    have hoffset := htokens stop (mem_of_tokenAt hstop)
    have hnumbers := (Shortfall.of_finish_eq hfinish).writable hoffset hs hread
    exact Or.inr ⟨_, congrArg Except.error (Halt.ofDiagnostic_of_fits hnumbers)⟩
  | accepted => exact Or.inl ⟨_, rfl⟩

/-- **Reading stops, and stays within its input.** On any list of tokens that is not empty, an attempt
ends after finitely many turns; it reads at most 64 tokens past the end of the list. It gives a definition
or a rejection, or else fails over a number that is too long to be written, and this cannot happen if the
arities of the tables, the offsets of the tokens and the number of tokens can be written. What stands after
the first end of input makes no difference, and no turn goes past it. A list without an end of input is
never accepted. -/
theorem parse_halts (t : Tables) {tokens : List Token} (hne : tokens ≠ []) :
    let reader : Reader := { tokens }
    let result := parse t reader
    (∃ s, Reaches t reader s ∧ Stops t reader s result) ∧
      (∀ s, Reaches t reader s → s.read ≤ tokens.length + 64) ∧
      result.2.read ≤ tokens.length + 64 ∧
      ((∃ d, result.1 = .ok d) ∨ (∃ e, result.1 = .error (.rejected e)) ∨
        result.1 = .error .longNumber) ∧
      (t.AritiesFit → (∀ token ∈ tokens, Fits token.offset) → Fits (tokens.length + 64 : Nat) →
        (∃ d, result.1 = .ok d) ∨ ∃ e, result.1 = .error (.rejected e)) ∧
      parse t { tokens := upToStop tokens } =
        (result.1, { result.2 with tokens := upToStop tokens }) ∧
      ((∃ stop ∈ tokens, stop.kind = .eof) →
        (∀ s, Reaches t reader s → s.read ≤ firstStop tokens) ∧
          result.2.read ≤ firstStop tokens) ∧
      ((∀ token ∈ tokens, token.kind ≠ .eof) → ∀ d, result.1 ≠ .ok d) := by
  intro reader result
  obtain ⟨s, hreaches, hstops⟩ := exists_stops t (show reader.tokens ≠ [] from hne)
  have hread : reader.read < reader.tokens.length := List.length_pos_of_ne_nil hne
  have hdepth : reader.depth ≤ maxDepth := Nat.zero_le _
  refine ⟨⟨s, hreaches, hstops⟩, ?_, hstops.read_le hreaches hne hread hdepth,
    hstops.ok_or_halted, ?_, parse_upToStop t tokens, ?_, hstops.ne_ok⟩
  · intro m hm
    exact hm.read_le hne hread hdepth
  · intro ht htokens hlength
    have hbound : Fits s.read := hlength.of_le (hreaches.read_le hne hread hdepth)
    exact hstops.ok_or_rejected (hreaches.writable ht htokens) hbound htokens
  · intro hstop
    have hall : ∀ m, Reaches t reader m → m.read ≤ firstStop tokens :=
      fun m hm => hm.read_le_firstStop hstop (Nat.zero_le _)
    exact ⟨hall, hstops.read_le_firstStop hstop (hall s hreaches)⟩

/-- Three calls, the second and third in brackets, of which one bracket is closed: past the end of the
list its closing bracket is read once more, and then refused. With an end of input in the middle, what
stands before it is a definition. -/
theorem parse_halts_unended :
    let name (value : String) : Token := ⟨.identifier, value, 0⟩
    let mark (kind : TokenKind) : Token := ⟨kind, "", 0⟩
    let call := [name "or", mark .colon, name "ip6ttl", mark .colon]
    let unended := call ++ mark .lbracket :: call ++ mark .lbracket :: call ++
      [name "ip6tos", mark .rbracket]
    let ended := name "ip6ttl" :: mark .eof :: unended
    (unended ≠ [] ∧ (∀ token ∈ unended, token.kind ≠ .eof) ∧ Tables.builtin.AritiesFit ∧
      (∀ token ∈ unended, Fits token.offset) ∧ Fits (unended.length + 64 : Nat) ∧
      (parse .builtin { tokens := unended }).2.read = unended.length + 1 ∧
      (parse .builtin { tokens := unended }).2.read ≤ unended.length + 64 ∧
      ∃ e, (parse .builtin { tokens := unended }).1 = .error (.rejected e)) ∧
    (ended ≠ [] ∧ (∃ stop ∈ ended, stop.kind = .eof) ∧
      (∃ d, (parse .builtin { tokens := ended }).1 = .ok d) ∧
      (parse .builtin { tokens := upToStop ended }).2.read = 1 ∧
      (parse .builtin { tokens := ended }).2.read ≤ 1) := by
  intro name mark call unended ended
  have hunended : unended ≠ [] := by simp [unended]
  have hended : ended ≠ [] := by simp [ended]
  have hall : ∀ token ∈ unended, token.kind ≠ .eof := by decide
  have hstop : ∃ stop ∈ ended, stop.kind = .eof := by decide
  have ht : Tables.builtin.AritiesFit := by decide
  have hoffsets : ∀ token ∈ unended, Fits token.offset := by decide
  have hlength : Fits (unended.length + 64 : Nat) := by decide
  obtain ⟨-, -, hread, -, hends, -, -, hnever⟩ := parse_halts .builtin hunended
  obtain ⟨-, -, -, -, -, -, hwithin, -⟩ := parse_halts .builtin hended
  have hrejected : ∃ e, (parse .builtin { tokens := unended }).1 = .error (.rejected e) := by
    rcases hends ht hoffsets hlength with ⟨d, hd⟩ | hrejected
    · exact absurd hd (hnever hall d)
    · exact hrejected
  have hpast : (parse .builtin { tokens := unended }).2.read = unended.length + 1 := by cbv
  have haccepted : ∃ d, (parse .builtin { tokens := ended }).1 = .ok d := by
    exact ⟨.snoc [] (.name _), by cbv⟩
  have hcut : (parse .builtin { tokens := upToStop ended }).2.read = 1 := by cbv
  exact ⟨⟨hunended, hall, ht, hoffsets, hlength, hpast, hread, hrejected⟩, hended, hstop, haccepted,
    hcut, (hwithin hstop).2⟩

/-- A call with one argument of a function whose arity is too long to be written is neither accepted nor
rejected. -/
theorem parse_long_arity :
    let tokens := longCall ++ [.stop 3]
    tokens ≠ [] ∧ (parse longTables { tokens }).1 = .error .longNumber := by
  intro tokens
  obtain ⟨s, j, hfeed, hfinish, hlong⟩ := longCall_reported 3
  have hbody : body { tokens } = longCall := by decide
  have hstop : stop? { tokens } = some (.stop 3) := by decide
  refine ⟨by decide, ?_⟩
  have hlast : tokens.getLast? = some (.stop 3) := by decide
  simp only [parse, hlast, hbody, hfeed, hstop]
  change finish longTables s (Token.stop 3).offset = .error j at hfinish
  rw [hfinish]
  exact congrArg Except.error hlong

end Reader

end TrafficKey.Direct
