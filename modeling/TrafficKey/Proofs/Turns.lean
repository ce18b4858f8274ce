import TrafficKey.Proofs.Progress
import TrafficKey.Proofs.WellFormed

/-!
# A reader turn by turn

A list of tokens is read one token a turn. Past the end of the list its last token stands at every
place, so nothing outside of the parser ends a run of turns: it goes on until a token is refused or the
end of input is met. Here is that every run ends, with what `Reader.parse` gives, and what each turn
keeps: the depth is what it was at the start, and one more for each bracket that is open.
-/

namespace TrafficKey.Direct

variable {t : Tables} {s s' : State} {token : Token} {j : Rejection}

/-! ## The depth -/

/-- Each open bracket adds one to the depth at which reading began. -/
def State.DepthFrom (base : Nat) (s : State) : Prop :=
  s.depth = base + s.stage.parents.length

theorem Step.depthFrom {base : Nat} (h : Step t s token s') (hs : s.DepthFrom base) :
    s'.DepthFrom base := by
  unfold State.DepthFrom at hs ⊢
  cases h with
  | keyName hstage _ => rcases hstage with rfl | ⟨comma, rfl⟩ <;> exact hs
  | openKey | endName | literal | key | nextArgument | endComputed | nestedName | openNested =>
    exact hs
  | openBracket =>
    simp only [Stage.parents, List.length_cons] at hs ⊢
    omega
  | closeBracket =>
    simp only [Stage.parents, List.length_cons] at hs ⊢
    omega

theorem Step.depth_le (h : Step t s token s') (hs : s.depth ≤ maxDepth) :
    s'.depth ≤ maxDepth := by
  cases h with
  | openBracket _ _ hdepth => exact hdepth
  | closeBracket => exact Nat.le_trans (Nat.sub_le _ _) hs
  | keyName | openKey | endName | literal | key | nextArgument | endComputed | nestedName
  | openNested => exact hs

theorem Refusal.depth_eq (h : Refusal t s token j) : j.depth = s.depth := by
  cases h <;> rfl

theorem Shortfall.depth_eq {stop : Int} (h : Shortfall t stop s j) : j.depth = s.depth := by
  cases h <;> rfl

/-- A line is complete only where no bracket is open. -/
theorem Finish.parents_eq {d : Definition} (h : Finish t s d) : s.stage.parents = [] := by
  cases h <;> rfl

namespace Reader

/-! ## Turns -/

/-- The token at a place. Past the end of the list, the last token stands at every place. -/
def tokenAt (r : Reader) (place : Nat) : Option Token :=
  r.tokens[place]?.or r.tokens.getLast?

/-- Where an attempt begins. -/
def start (r : Reader) : State :=
  { read := r.read, depth := r.depth }

/-- One turn: the token at hand is accepted. The end of input is never read past. -/
def Turn (t : Tables) (r : Reader) (s s' : State) : Prop :=
  ∃ token, r.tokenAt s.read = some token ∧ token.kind ≠ .eof ∧ step t s token = .ok s'

/-- The state is reached in some number of turns. -/
def Reaches (t : Tables) (r : Reader) (s : State) : Prop :=
  Relation.ReflTransGen (Turn t r) r.start s

/-- There is no further turn: the token at hand is refused, or it is the end of input. -/
inductive Stops (t : Tables) (r : Reader) (s : State) : Except Halt Definition × Reader → Prop
  | refused {token : Token} {j : Rejection} (htoken : r.tokenAt s.read = some token)
      (hk : token.kind ≠ .eof) (hstep : step t s token = .error j) : Stops t r s (r.after j)
  | short {stop : Token} {j : Rejection} (hstop : r.tokenAt s.read = some stop)
      (hk : stop.kind = .eof) (hfinish : finish t s stop.offset = .error j) :
      Stops t r s (r.after j)
  | accepted {stop : Token} {d : Definition} (hstop : r.tokenAt s.read = some stop)
      (hk : stop.kind = .eof) (hfinish : finish t s stop.offset = .ok d) :
      Stops t r s (.ok d, { r with read := s.read, depth := s.depth })

variable {reader : Reader} {xs ys : List Token} {last : Token}

/-! ### The token at hand -/

theorem tokenAt_of_getElem? {place : Nat} (h : reader.tokens[place]? = some token) :
    reader.tokenAt place = some token := by
  unfold tokenAt
  rw [h]
  rfl

theorem tokenAt_of_length_le (hlast : reader.tokens.getLast? = some last) {place : Nat}
    (h : reader.tokens.length ≤ place) : reader.tokenAt place = some last := by
  unfold tokenAt
  rw [List.getElem?_eq_none h, hlast]
  rfl

theorem mem_of_tokenAt {place : Nat} (h : reader.tokenAt place = some token) :
    token ∈ reader.tokens := by
  unfold tokenAt at h
  rcases Option.or_eq_some_iff.1 h with hplace | ⟨-, hlast⟩
  · exact List.mem_of_getElem? hplace
  · exact List.mem_of_getLast? hlast

/-- What is still to be read splits into the tokens before the end of input and the rest. -/
theorem drop_eq (reader : Reader) : ∃ rest, reader.tokens.drop reader.read = reader.body ++ rest ∧
    ∀ token, rest.head? = some token → token.kind = .eof := by
  refine ⟨(reader.tokens.drop reader.read).dropWhile (·.kind ≠ .eof), ?_, ?_⟩
  · exact (List.takeWhile_append_dropWhile).symm
  · intro token hhead
    have hnot := List.head?_dropWhile_not (fun token : Token => decide (token.kind ≠ .eof))
      (reader.tokens.drop reader.read)
    rw [hhead] at hnot
    simpa using hnot

theorem kind_ne_eof_of_mem_body (h : token ∈ reader.body) : token.kind ≠ .eof := by
  simpa using List.mem_takeWhile_imp h

theorem tokenAt_of_body (h : reader.body = xs ++ token :: ys) :
    reader.tokenAt (reader.read + xs.length) = some token ∧ token.kind ≠ .eof := by
  obtain ⟨rest, hdrop, -⟩ := drop_eq reader
  constructor
  · apply tokenAt_of_getElem?
    rw [← List.getElem?_drop, hdrop, h]
    simp
  · have hmem : token ∈ reader.body := by simp [h]
    exact kind_ne_eof_of_mem_body hmem

/-- The end of input stands right after the tokens before it. -/
theorem tokenAt_of_stop {stop : Token} (h : reader.stop? = some stop) :
    reader.tokenAt (reader.read + reader.body.length) = some stop ∧ stop.kind = .eof := by
  have hk : stop.kind = .eof := by simpa using List.find?_some h
  refine ⟨?_, hk⟩
  obtain ⟨rest, hdrop, hrest⟩ := drop_eq reader
  have hbody : reader.body.find? (·.kind = .eof) = none := by
    rw [List.find?_eq_none]
    intro token htoken
    simpa using kind_ne_eof_of_mem_body htoken
  unfold stop? at h
  rw [hdrop, List.append_assoc, List.find?_append, hbody, Option.none_or] at h
  cases rest with
  | cons token more =>
    -- the list itself has an end of input
    rw [List.cons_append, List.find?_cons_of_pos (by simpa using hrest token rfl)] at h
    cases h
    apply tokenAt_of_getElem?
    rw [← List.getElem?_drop, hdrop]
    simp
  | nil =>
    -- nothing is left of the list, and its last token is the end of input
    rw [List.append_nil] at hdrop
    have hlast : reader.tokens.getLast? = some stop := by
      simpa using List.mem_of_find?_eq_some h
    by_cases hread : reader.tokens.length ≤ reader.read
    · exact tokenAt_of_length_le hlast (Nat.le_add_right_of_le hread)
    · have hmem : stop ∈ reader.body := by
        apply List.mem_of_getLast?
        rw [← hdrop, List.getLast?_drop, if_neg hread, hlast]
      exact absurd hk (kind_ne_eof_of_mem_body hmem)

/-- Without an end of input the last token stands at all further places. -/
theorem tokenAt_of_stop_none (hlast : reader.tokens.getLast? = some last)
    (h : reader.stop? = none) : last.kind ≠ .eof ∧
      ∀ place, reader.read + reader.body.length ≤ place → reader.tokenAt place = some last := by
  unfold stop? at h
  rw [List.find?_eq_none, List.forall_mem_append] at h
  refine ⟨by simpa [hlast] using h.2, ?_⟩
  intro place hplace
  obtain ⟨rest, hdrop, hrest⟩ := drop_eq reader
  have hnil : rest = [] := by
    cases rest with
    | nil => rfl
    | cons token more =>
      have hk := h.1 token (by simp [hdrop])
      simp [hrest token rfl] at hk
  rw [hnil, List.append_nil] at hdrop
  have hlength : reader.tokens.length - reader.read = reader.body.length := by
    rw [← hdrop, List.length_drop]
  exact tokenAt_of_length_le hlast (by omega)

/-! ### The run of an attempt -/

theorem reaches_of_feed (hbody : reader.body = xs ++ ys) (h : feed t reader.start xs = .ok s) :
    Reaches t reader s := by
  induction xs using List.reverseRecOn generalizing s ys with
  | nil =>
    cases h
    exact .refl
  | append_singleton done token ih =>
    rw [List.append_assoc] at hbody
    obtain ⟨m, hdone, hstep⟩ := feed_snoc.1 h
    have hread : m.read = reader.read + done.length := feed_read hdone
    obtain ⟨htoken, hk⟩ := tokenAt_of_body hbody
    rw [← hread] at htoken
    exact (ih hbody hdone).tail ⟨token, htoken, hk, hstep.step_eq⟩

/-- The last token is read again and again until it is refused. -/
theorem exists_turns_exhaust (hk : last.kind ≠ .eof)
    (hlast : ∀ place, s.read ≤ place → reader.tokenAt place = some last) :
    ∃ s', Relation.ReflTransGen (Turn t reader) s s' ∧ s.read ≤ s'.read ∧
      step t s' last = .error (exhaust t last s) := by
  fun_induction exhaust t last s with
  | case1 s j h => exact ⟨s, .refl, Nat.le_refl _, h⟩
  | case2 s s' h ih =>
    have hread := (Step.of_step_eq h).read_eq
    obtain ⟨s'', hturns, hle, hrefused⟩ := ih (fun place hplace => hlast place (by omega))
    exact ⟨s'', hturns.head ⟨last, hlast _ (Nat.le_refl _), hk, h⟩, by omega, hrefused⟩

/-- Every attempt comes to an end after finitely many turns, and its result is how it ends. -/
theorem exists_stops (t : Tables) (h : reader.tokens ≠ []) :
    ∃ s, Reaches t reader s ∧ Stops t reader s (parse t reader) := by
  obtain ⟨last, hlast⟩ : ∃ last, reader.tokens.getLast? = some last :=
    ⟨_, List.getLast?_eq_some_getLast h⟩
  unfold parse
  simp only [hlast]
  cases hfeed : feed t { read := reader.read, depth := reader.depth } reader.body with
  | error j =>
    -- a token before the end of input is refused
    obtain ⟨before, token, after, s, hbody, hbefore, hstep⟩ := foldlM_eq_error.1 hfeed
    obtain ⟨htoken, hk⟩ := tokenAt_of_body hbody
    have hread : s.read = reader.read + before.length := feed_read hbefore
    rw [← hread] at htoken
    exact ⟨s, reaches_of_feed hbody hbefore, .refused htoken hk hstep⟩
  | ok s =>
    have hreaches : Reaches t reader s := reaches_of_feed (List.append_nil _).symm hfeed
    have hread : s.read = reader.read + reader.body.length := feed_read hfeed
    cases hstop : reader.stop? with
    | none =>
      obtain ⟨hk, hplaces⟩ := tokenAt_of_stop_none hlast hstop
      rw [← hread] at hplaces
      obtain ⟨s', hturns, hle, hrefused⟩ := exists_turns_exhaust (t := t) hk hplaces
      exact ⟨s', hreaches.trans hturns, .refused (hplaces _ hle) hk hrefused⟩
    | some stop =>
      obtain ⟨htoken, hk⟩ := tokenAt_of_stop hstop
      rw [← hread] at htoken
      simp only
      cases hfinish : finish t s stop.offset with
      | error j => exact ⟨s, hreaches, .short htoken hk hfinish⟩
      | ok d => exact ⟨s, hreaches, .accepted htoken hk hfinish⟩

theorem parse_tokens (t : Tables) (reader : Reader) :
    (parse t reader).2.tokens = reader.tokens := by
  unfold parse
  split
  · rfl
  · split
    · rfl
    · split
      · rfl
      · split <;> rfl

/-! ## What every turn keeps -/

theorem Turn.exists_step (h : Turn t reader s s') :
    ∃ token, reader.tokenAt s.read = some token ∧ token.kind ≠ .eof ∧ Step t s token s' := by
  obtain ⟨token, htoken, hk, hstep⟩ := h
  exact ⟨token, htoken, hk, .of_step_eq hstep⟩

theorem Reaches.le_read (h : Reaches t reader s) : reader.read ≤ s.read := by
  induction h with
  | refl => exact Nat.le_refl _
  | tail _ hturn ih =>
    obtain ⟨token, -, -, hstep⟩ := hturn.exists_step
    have hread := hstep.read_eq
    omega

theorem Reaches.depthFrom (h : Reaches t reader s) : s.DepthFrom reader.depth := by
  induction h with
  | refl => rfl
  | tail _ hturn ih =>
    obtain ⟨token, -, -, hstep⟩ := hturn.exists_step
    exact hstep.depthFrom ih

theorem Reaches.depth_le (h : Reaches t reader s) (hdepth : reader.depth ≤ maxDepth) :
    s.depth ≤ maxDepth := by
  induction h with
  | refl => exact hdepth
  | tail _ hturn ih =>
    obtain ⟨token, -, -, hstep⟩ := hturn.exists_step
    exact hstep.depth_le ih

end Reader

end TrafficKey.Direct
