import TrafficKey.Proofs.Halting
import TrafficKey.Proofs.Nesting

/-!
# A reader that is used again

A rejected attempt leaves a reader in the middle of its list, with the depth that it had there, and the
next attempt goes on from that place and depth. However often a reader is used, its place and its depth
never go back and the depth stays within its limit. An attempt that succeeds closes all the brackets that
it opens and stops at the first end of input, where every further attempt finds nothing to read.
-/

namespace TrafficKey.Direct.Reader

variable {t : Tables} {s s' : State} {token : Token} {reader : Reader}
  {result : Except Halt Definition × Reader}

/-! ## One attempt -/

theorem Stops.le_read (h : Stops t reader s result) : s.read ≤ result.2.read := by
  cases h with
  | refused _ _ hstep => exact (Refusal.of_step_eq hstep).le_read
  | short _ _ hfinish => exact Nat.le_of_eq (Shortfall.of_finish_eq hfinish).read_eq.symm
  | accepted => exact Nat.le_refl _

/-- The depth is left as it was when reading stopped: a rejection closes nothing. -/
theorem Stops.depth_eq (h : Stops t reader s result) : result.2.depth = s.depth := by
  cases h with
  | refused _ _ hstep => exact (Refusal.of_step_eq hstep).depth_eq
  | short _ _ hfinish => exact (Shortfall.of_finish_eq hfinish).depth_eq
  | accepted => rfl

/-- The depth counts brackets exactly: each closing one that is read was opened in the same attempt. -/
theorem Reaches.depth_step (h : Reaches t reader s) (hstep : step t s token = .ok s') :
    (s'.depth : Int) = s.depth + token.kind.nesting := by
  have hopen : s.depth = reader.depth + s.stage.parents.length := h.depthFrom
  exact (Step.of_step_eq hstep).depth_eq (by omega)

/-- Where a definition is complete, all brackets of the attempt are closed. -/
theorem Reaches.depth_of_finish (h : Reaches t reader s) {stop : Int} {d : Definition}
    (hfinish : finish t s stop = .ok d) : s.depth = reader.depth := by
  have hopen : s.depth = reader.depth + s.stage.parents.length := h.depthFrom
  rw [(Finish.of_finish_eq hfinish).parents_eq] at hopen
  exact hopen

/-- At an end of input no turn is made. -/
theorem Reaches.eq_start {stop : Token} (h : Reaches t reader s)
    (hstop : reader.tokenAt reader.read = some stop) (hk : stop.kind = .eof) : s = reader.start := by
  rcases Relation.ReflTransGen.cases_head h with heq | ⟨m, ⟨token, htoken, hother, -⟩, -⟩
  · exact heq.symm
  · have heq : some token = some stop := htoken.symm.trans hstop
    cases heq
    exact absurd hk hother

theorem parse_at_stop (t : Tables) {stop : Token} (hstop : reader.tokenAt reader.read = some stop)
    (hk : stop.kind = .eof) :
    parse t reader = (.error (.rejected .emptyDefinition), reader) := by
  have hne : reader.tokens ≠ [] := List.ne_nil_of_mem (mem_of_tokenAt hstop)
  obtain ⟨s, hreaches, hstops⟩ := exists_stops t hne
  -- reading stops where it began, with no key read
  obtain rfl := hreaches.eq_start hstop hk
  generalize parse t reader = result at hstops
  cases hstops with
  | refused htoken hother _ =>
    have heq : some _ = some stop := htoken.symm.trans hstop
    cases heq
    exact absurd hk hother
  | short _ _ hfinish =>
    cases hfinish
    rfl
  | accepted _ _ hfinish => cases hfinish

/-! ## Any number of attempts -/

/-- The reader after a number of attempts. -/
def afterAttempts (t : Tables) (n : Nat) (reader : Reader) : Reader :=
  (fun r => (parse t r).2)^[n] reader

/-- What holds of a reader of the tokens whenever an attempt begins. -/
structure Resumable (tokens : List Token) (reader : Reader) : Prop where
  tokens_eq : reader.tokens = tokens
  depth_le : reader.depth ≤ maxDepth
  read_le : (∃ stop ∈ tokens, stop.kind = .eof) → reader.read ≤ firstStop tokens

namespace Resumable

variable {tokens : List Token}

theorem initial (tokens : List Token) : Resumable tokens { tokens } where
  tokens_eq := rfl
  depth_le := Nat.zero_le _
  read_le := fun _ => Nat.zero_le _

/-- However an attempt ends, another one can begin. -/
theorem next (h : Resumable tokens reader) (hne : tokens ≠ []) (t : Tables) :
    Resumable tokens (parse t reader).2 := by
  obtain ⟨rfl, hdepth, hread⟩ := h
  obtain ⟨s, hreaches, hstops⟩ := exists_stops t hne
  refine ⟨parse_tokens t reader, ?_, ?_⟩
  · rw [hstops.depth_eq]
    exact hreaches.depth_le hdepth
  · intro hstop
    exact hstops.read_le_firstStop hstop (hreaches.read_le_firstStop hstop (hread hstop))

theorem iterate (h : Resumable tokens reader) (hne : tokens ≠ []) (t : Tables) (n : Nat) :
    Resumable tokens (afterAttempts t n reader) :=
  Function.Iterate.rec (Resumable tokens) h (fun _ hr => hr.next hne t) n

/-- A successful attempt leaves the depth as it was, and ends at the first end of input. -/
theorem of_parse_eq_ok (h : Resumable tokens reader) {d : Definition} {after : Reader}
    (hparse : parse t reader = (.ok d, after)) :
    after.depth = reader.depth ∧ (∃ stop ∈ tokens, stop.kind = .eof) ∧
      after.read = firstStop tokens ∧
      parse t after = (.error (.rejected .emptyDefinition), after) := by
  obtain ⟨rfl, -, hread⟩ := h
  have hne : reader.tokens ≠ [] := by
    intro hnil
    simp [parse, hnil] at hparse
  obtain ⟨s, hreaches, hstops⟩ := exists_stops t hne
  rw [hparse] at hstops
  -- of the ways to stop, only the last one gives a definition
  cases hstops with
  | @accepted stop _ hat hk hfinish =>
    have hstop : ∃ stop ∈ reader.tokens, stop.kind = .eof := ⟨stop, mem_of_tokenAt hat, hk⟩
    have hle := hreaches.read_le_firstStop hstop (hread hstop)
    exact ⟨hreaches.depth_of_finish hfinish, hstop, (kind_eq_eof_iff hstop hle hat).1 hk,
      parse_at_stop t hat hk⟩

end Resumable

/-- **A reader can be used again after any outcome.** After any number of attempts on a list of tokens,
the next one leaves a depth of at most 64 and moves neither the place nor the depth back; at each of its
turns the depth goes up or down by exactly the bracket that is read, so it is never taken below zero. If
it succeeds, the depth is as it was before, the place is the first end of input, and all attempts after
it find an empty definition and change nothing. -/
theorem parse_again (t : Tables) {tokens : List Token} (hne : tokens ≠ []) (n : Nat) :
    let reader := afterAttempts t n { tokens }
    let result := parse t reader
    result.2.depth ≤ 64 ∧ reader.read ≤ result.2.read ∧ reader.depth ≤ result.2.depth ∧
      (∀ s token s', Reaches t reader s → step t s token = .ok s' →
        (s'.depth : Int) = s.depth + token.kind.nesting) ∧
      ∀ d, result.1 = .ok d →
        result.2.depth = reader.depth ∧
          (∃ stop ∈ tokens, stop.kind = .eof) ∧ result.2.read = firstStop tokens ∧
          ∀ m, parse t (afterAttempts t m result.2) =
            (.error (.rejected .emptyDefinition), result.2) := by
  intro reader result
  have hreader : Resumable tokens reader := (Resumable.initial tokens).iterate hne t n
  obtain ⟨s, hreaches, hstops⟩ := exists_stops t (hreader.tokens_eq ▸ hne)
  refine ⟨(hreader.next hne t).depth_le, ?_, ?_, ?_, ?_⟩
  · exact Nat.le_trans hreaches.le_read hstops.le_read
  · have hopen : s.depth = reader.depth + s.stage.parents.length := hreaches.depthFrom
    have hleft : result.2.depth = s.depth := hstops.depth_eq
    omega
  · intro m token m' hm hstep
    exact hm.depth_step hstep
  · intro d hd
    have hparse : parse t reader = (.ok d, result.2) := Prod.ext hd rfl
    obtain ⟨hdepth, hstop, hread, hagain⟩ := hreader.of_parse_eq_ok hparse
    refine ⟨hdepth, hstop, hread, ?_⟩
    intro m
    -- an attempt at the end of input gives the same reader back
    have hfixed : afterAttempts t m result.2 = result.2 :=
      Function.iterate_fixed (congrArg Prod.snd hagain) m
    rw [hfixed]
    exact hagain

/-- A first attempt is rejected within a bracket, at an unknown name. The second one goes on after that
name, at the same depth, and succeeds. -/
theorem parse_again_within_bracket :
    let name (value : String) : Token := ⟨.identifier, value, 0⟩
    let mark (kind : TokenKind) : Token := ⟨kind, "", 0⟩
    let tokens := [name "or", mark .colon, name "ip6ttl", mark .colon, mark .lbracket, name "or",
      mark .colon, name "nosuch", name "ip6tos", mark .eof, mark .comma]
    let reader := afterAttempts .builtin 1 { tokens }
    let result := parse .builtin reader
    tokens ≠ [] ∧ reader = { tokens, read := 8, depth := 1 } ∧ (∃ d, result.1 = .ok d) ∧
      result.2.depth = reader.depth ∧ result.2.read = 9 ∧
      ∀ m, parse .builtin (afterAttempts .builtin m result.2) =
        (.error (.rejected .emptyDefinition), result.2) := by
  intro name mark tokens reader result
  have hne : tokens ≠ [] := by simp [tokens]
  have hreader : reader = { tokens, read := 8, depth := 1 } := by cbv
  obtain ⟨d, hd⟩ : ∃ d, result.1 = .ok d := by
    have hsecond : (parse .builtin { tokens, read := 8, depth := 1 }).1 =
        .ok (.snoc [] (.name ⟨"ip6tos", "type of service bits"⟩)) := by cbv
    rw [← hreader] at hsecond
    exact ⟨_, hsecond⟩
  obtain ⟨-, -, -, -, hsuccess⟩ := parse_again .builtin hne 1
  obtain ⟨hdepth, -, hread, hagain⟩ := hsuccess d hd
  have hplace : firstStop tokens = 9 := by decide
  exact ⟨hne, hreader, ⟨d, hd⟩, hdepth, hread.trans hplace, hagain⟩

end TrafficKey.Direct.Reader
