import TrafficKey.Parse.Checker
import TrafficKey.Proofs.Wording

/-!
# The checker without a grammar

The checker leaves it to the grammar to refuse a token that stands in the wrong place. Some of these
tokens it passes over, and some end a call without closing its bracket, so on its own it gets into
states that no line leads to. It is safe in these too. While a key is not complete, the open calls are
the key's own call and above it nested ones, each of which once opened a bracket that still counts. So
there is always a call to look at, and the count of brackets can go down whenever a nested call ends.

What it finds wrong is reported, if the numbers that the report has to write can be written.
-/

namespace TrafficKey.Checker

open Decimal (Fits)

/-! ## The open calls -/

/-- The open calls of a key, innermost first: the outermost is the key's own, the others are nested. -/
inductive Stacked : List CallFrame → Prop
  | key {frame : CallFrame} (h : frame.nested = false) : Stacked [frame]
  | nested {frame : CallFrame} {frames : List CallFrame} (h : frame.nested = true)
      (hrest : Stacked frames) : Stacked (frame :: frames)

theorem Stacked.ne_nil {frames : List CallFrame} (h : Stacked frames) : frames ≠ [] := by
  cases h <;> simp

/-- Counting one more argument changes nothing about which calls are nested. -/
theorem Stacked.count {frame : CallFrame} {frames : List CallFrame} (h : Stacked (frame :: frames))
    (n : Nat) : Stacked ({ frame with args := n } :: frames) := by
  cases h with
  | key hnested => exact .key hnested
  | nested hnested hrest => exact .nested hnested hrest

/-- How many of the open calls are nested. -/
def nestedCalls (c : Checker) : Nat :=
  c.frames.countP (·.nested)

/-! ## What every token keeps -/

/-- The calls, the waiting identifier and the brackets fit the stage. After an opening bracket whose
call has not begun, one bracket more counts than there are nested calls. -/
def Balanced (c : Checker) : Prop :=
  c.depth ≤ maxDepth ∧
    match c.stage with
    | .key | .afterKey => c.frames = []
    | .keyName => c.frames = [] ∧ ∃ name, c.pending = some name
    | .callName => Stacked c.frames ∧ c.nestedCalls < c.depth
    | .nestedName => Stacked c.frames ∧ c.nestedCalls < c.depth ∧ ∃ name, c.pending = some name
    | .argument | .afterArgument => Stacked c.frames ∧ c.nestedCalls ≤ c.depth

/-- A check goes on with something that `P` holds of, or it fails in a way that `E` allows. -/
def GoesOn {α : Type} (E : CheckFault → Prop) (P : α → Prop) : Except CheckFault α → Prop
  | .ok a => P a
  | .error fault => E fault

theorem GoesOn.bind {α β : Type} {E : CheckFault → Prop} {P : α → Prop} {Q : β → Prop}
    {x : Except CheckFault α} {f : α → Except CheckFault β} (h : GoesOn E P x)
    (hnext : ∀ a, P a → GoesOn E Q (f a)) : GoesOn E Q (x >>= f) := by
  cases x with
  | ok a => exact hnext a h
  | error fault => exact h

/-- The line is rejected. -/
def Rejects (fault : CheckFault) : Prop :=
  ∃ d, fault = .rejected d

theorem goesOn_reject {α : Type} {P : α → Prop} (d : Diagnostic) : GoesOn Rejects P (reject d) :=
  ⟨d, rfl⟩

variable {t : Tables} {base : Int} {c : Checker} {token : Token}

theorem goesOn_pendingName {name : Token} (h : c.pending = some name) :
    GoesOn Rejects (· = name) c.pendingName := by
  unfold pendingName
  rw [h]
  rfl

theorem goesOn_previousToken {previous : Token} (h : c.previous = some previous) :
    GoesOn Rejects (· = previous) c.previousToken := by
  unfold previousToken
  rw [h]
  rfl

theorem goesOn_checkName : GoesOn Rejects (fun _ => True) (checkName t base token) := by
  unfold checkName
  split
  · trivial
  · exact goesOn_reject _

/-! ## One token -/

theorem onAfterKey_balanced (hdepth : c.depth ≤ maxDepth) (hframes : c.frames = [])
    (hstage : c.stage = .afterKey) : (onAfterKey c token).Balanced := by
  unfold onAfterKey
  split
  · exact ⟨hdepth, hframes⟩
  · refine ⟨hdepth, ?_⟩
    rw [hstage]
    exact hframes

theorem goesOn_onAfterArgument (hdepth : c.depth ≤ maxDepth) (hstacked : Stacked c.frames)
    (hnested : c.nestedCalls ≤ c.depth) (hstage : c.stage = .afterArgument) :
    GoesOn Rejects Balanced (onAfterArgument base c token) := by
  rcases c with ⟨stage, frames, depth, pending, previous⟩
  cases hstage
  unfold onAfterArgument
  split
  · exact ⟨hdepth, hstacked, hnested⟩
  · cases hstacked with
    | @key frame hkey =>
      -- the key's own call ends, and no call is left
      simp only [hkey]
      split
      · exact onAfterKey_balanced hdepth rfl rfl
      · exact goesOn_reject _
    | @nested frame frames hinner hrest =>
      have hcount : frames.countP (·.nested) + 1 ≤ depth := by
        simpa [nestedCalls, hinner] using hnested
      simp only [hinner, if_true]
      split
      · split
        · -- its bracket counted, so there is one to close
          have hless : depth - 1 ≤ maxDepth := Nat.le_trans (Nat.sub_le _ _) hdepth
          exact ⟨hless, hrest, Nat.le_sub_of_add_le hcount⟩
        · exact ⟨hdepth, hrest, Nat.le_of_succ_le hcount⟩
      · exact goesOn_reject _

theorem goesOn_openCall {nested : Bool} {name : Token} (hdepth : c.depth ≤ maxDepth)
    (hpending : c.pending = some name)
    (hstacked : ∀ frame : CallFrame, frame.nested = nested → Stacked (frame :: c.frames))
    (hnested : c.nestedCalls + nested.toNat ≤ c.depth) :
    GoesOn Rejects Balanced (openCall t base c nested token) := by
  unfold openCall
  refine (goesOn_pendingName hpending).bind ?_
  rintro _ rfl
  split
  · exact goesOn_reject _
  · refine goesOn_onAfterArgument hdepth (hstacked _ rfl) ?_ rfl
    cases nested with
    | false => exact hnested
    | true => simpa [nestedCalls] using hnested

theorem goesOn_onKey (h : c.Balanced) (hstage : c.stage = .key) :
    GoesOn Rejects Balanced (onKey base c token) := by
  have hframes : c.frames = [] := by
    have hfits := h.2
    rw [hstage] at hfits
    exact hfits
  unfold onKey
  split
  · exact ⟨h.1, hframes, token, rfl⟩
  · split
    · split
      · exact goesOn_reject _
      · exact h
    · exact h

theorem goesOn_onKeyName (h : c.Balanced) (hstage : c.stage = .keyName) :
    GoesOn Rejects Balanced (onKeyName t base c token) := by
  obtain ⟨hdepth, hfits⟩ := h
  rw [hstage] at hfits
  obtain ⟨hframes, name, hpending⟩ := hfits
  unfold onKeyName
  split
  · refine goesOn_openCall hdepth hpending ?_ ?_
    · intro frame hframe
      rw [hframes]
      exact .key hframe
    · simp [nestedCalls, hframes]
  · refine (goesOn_pendingName hpending).bind ?_
    rintro _ rfl
    refine goesOn_checkName.bind ?_
    intro _ _
    exact onAfterKey_balanced hdepth hframes rfl

theorem goesOn_onArgument (h : c.Balanced) (hstage : c.stage = .argument)
    (hprevious : ∃ previous, c.previous = some previous) :
    GoesOn Rejects Balanced (onArgument t base c token) := by
  obtain ⟨hdepth, hfits⟩ := h
  rw [hstage] at hfits
  obtain ⟨hstacked, hnested⟩ := hfits
  unfold onArgument
  cases hframes : c.frames with
  | nil => exact absurd hframes hstacked.ne_nil
  | cons frame frames =>
    rw [hframes] at hstacked
    have hcount : ({ frame with args := frame.args + 1 } :: frames).countP (·.nested) ≤ c.depth := by
      simpa [nestedCalls, hframes, List.countP_cons] using hnested
    simp only
    split
    · split
      · exact goesOn_reject _
      · split
        · exact goesOn_reject _
        · rename_i hdeep
          exact ⟨Nat.lt_of_not_le hdeep, hstacked.count _, Nat.lt_succ_of_le hcount⟩
    · split
      · refine goesOn_checkName.bind ?_
        intro _ _
        exact ⟨hdepth, hstacked.count _, hcount⟩
      · exact ⟨hdepth, hstacked.count _, hcount⟩
    · obtain ⟨previous, hprevious⟩ := hprevious
      refine (goesOn_previousToken hprevious).bind ?_
      intro _ _
      exact goesOn_reject _
    · refine ⟨hdepth, ?_⟩
      rw [hstage]
      exact ⟨hframes ▸ hstacked, hnested⟩

theorem goesOn_onToken (h : c.Balanced)
    (hprevious : c.stage = .argument → ∃ previous, c.previous = some previous) :
    GoesOn Rejects Balanced (onToken t base c token) := by
  unfold onToken
  cases hstage : c.stage with
  | key => exact goesOn_onKey h hstage
  | keyName => exact goesOn_onKeyName h hstage
  | afterKey =>
    obtain ⟨hdepth, hfits⟩ := h
    rw [hstage] at hfits
    exact onAfterKey_balanced hdepth hfits hstage
  | callName =>
    have hsame := h
    obtain ⟨hdepth, hfits⟩ := h
    rw [hstage] at hfits
    simp only
    split
    · exact ⟨hdepth, hfits.1, hfits.2, token, rfl⟩
    · exact hsame
  | nestedName =>
    have hsame := h
    obtain ⟨hdepth, hfits⟩ := h
    rw [hstage] at hfits
    obtain ⟨hstacked, hnested, name, hpending⟩ := hfits
    simp only
    split
    · exact goesOn_openCall hdepth hpending (fun _ hframe => .nested hframe hstacked) hnested
    · exact hsame
  | argument => exact goesOn_onArgument h hstage (hprevious hstage)
  | afterArgument =>
    obtain ⟨hdepth, hfits⟩ := h
    rw [hstage] at hfits
    exact goesOn_onAfterArgument hdepth hfits.1 hfits.2 hstage

/-- Once a token has been checked, it is there as the token before the next one. -/
theorem goesOn_check (t : Tables) (base : Int) (token : Token) (h : c.Balanced)
    (hprevious : c.stage = .argument → ∃ previous, c.previous = some previous) :
    GoesOn Rejects (fun c' => c'.Balanced ∧ ∃ previous, c'.previous = some previous)
      (check t base c token) := by
  unfold check
  refine (goesOn_onToken h hprevious).bind ?_
  intro checked hchecked
  exact ⟨hchecked, token, rfl⟩

/-! ## Any tokens -/

variable {tokens : List Token}

theorem balanced_of_run (h : tokens.foldlM (check t base) {} = .ok c) :
    c.Balanced ∧ (c.stage = .argument → ∃ previous, c.previous = some previous) := by
  have hstep : ∀ (_ : List Token) (m : Checker) (token : Token) (m' : Checker),
      (m.Balanced ∧ (m.stage = .argument → ∃ previous, m.previous = some previous)) →
        check t base m token = .ok m' →
          m'.Balanced ∧ (m'.stage = .argument → ∃ previous, m'.previous = some previous) := by
    intro _ m token m' hm hcheck
    have hnext := goesOn_check t base token hm.1 hm.2
    rw [hcheck] at hnext
    exact ⟨hnext.1, fun _ => hnext.2⟩
  have hstart : Balanced {} := ⟨Nat.zero_le _, rfl⟩
  exact foldlM_invariant hstep ⟨hstart, fun hstage => nomatch hstage⟩ h

/-- What the checker looks at in each stage is there. No more than 64 brackets count as open, and among
them is one for each nested call. -/
structure Safe (c : Checker) : Prop where
  frames : c.stage = .argument ∨ c.stage = .afterArgument → c.frames ≠ []
  pending : c.stage = .keyName ∨ c.stage = .nestedName → ∃ name, c.pending = some name
  previous : c.stage = .argument → ∃ previous, c.previous = some previous
  nested : c.nestedCalls ≤ c.depth
  depth : c.depth ≤ 64

theorem Balanced.safe (h : c.Balanced)
    (hprevious : c.stage = .argument → ∃ previous, c.previous = some previous) : c.Safe := by
  obtain ⟨hdepth, hfits⟩ := h
  refine ⟨?_, ?_, hprevious, ?_, hdepth⟩
  · rintro (hstage | hstage)
    all_goals
      rw [hstage] at hfits
      exact hfits.1.ne_nil
  · rintro (hstage | hstage)
    · rw [hstage] at hfits
      exact hfits.2
    · rw [hstage] at hfits
      exact hfits.2.2
  · cases hstage : c.stage with
    | key | afterKey =>
      rw [hstage] at hfits
      simp [nestedCalls, hfits]
    | keyName =>
      rw [hstage] at hfits
      simp [nestedCalls, hfits.1]
    | callName =>
      rw [hstage] at hfits
      exact Nat.le_of_lt hfits.2
    | nestedName =>
      rw [hstage] at hfits
      exact Nat.le_of_lt hfits.2.1
    | argument | afterArgument =>
      rw [hstage] at hfits
      exact hfits.2

/-! ## Numbers that can be written -/

/-- All numbers that the checker remembers can be written; a count of arguments is bounded by the number of
tokens seen. -/
structure Writable (base : Int) (seen : Nat) (c : Checker) : Prop where
  frames : ∀ frame ∈ c.frames, Fits frame.shape.arity.minimum ∧ Fits (base + frame.name.offset) ∧
    frame.args ≤ seen
  pending : ∀ name, c.pending = some name → Fits (base + name.offset)
  previous : ∀ token, c.previous = some token → Fits (base + token.offset)

/-- If the line is rejected, the diagnostic can be worded. -/
def Words (fault : CheckFault) : Prop :=
  ∀ d, fault = .rejected d → ∀ n ∈ d.numbers, Fits n

theorem words_reject {α : Type} {P : α → Prop} {d : Diagnostic} (h : ∀ n ∈ d.numbers, Fits n) :
    GoesOn Words P (reject d) := by
  rintro _ ⟨⟩
  exact h

variable {seen : Nat}

theorem Writable.next (h : c.Writable base seen) : c.Writable base (seen + 1) := by
  refine ⟨?_, h.pending, h.previous⟩
  intro frame hframe
  obtain ⟨harity, hoffset, hcount⟩ := h.frames frame hframe
  exact ⟨harity, hoffset, Nat.le_succ_of_le hcount⟩

theorem Writable.onAfterKey (h : c.Writable base seen) : (onAfterKey c token).Writable base seen := by
  unfold Checker.onAfterKey
  split
  · exact ⟨h.frames, h.pending, h.previous⟩
  · exact h

theorem words_pendingName (h : c.Writable base seen) :
    GoesOn Words (fun name => Fits (base + name.offset)) c.pendingName := by
  unfold pendingName
  split
  · rename_i name hpending
    exact h.pending name hpending
  · rintro _ ⟨⟩

theorem words_previousToken (h : c.Writable base seen) :
    GoesOn Words (fun token => Fits (base + token.offset)) c.previousToken := by
  unfold previousToken
  split
  · rename_i token hprevious
    exact h.previous token hprevious
  · rintro _ ⟨⟩

theorem words_checkName (h : Fits (base + token.offset)) :
    GoesOn Words (fun _ => True) (checkName t base token) := by
  unfold checkName
  split
  · trivial
  · exact words_reject (by simpa [Tables.nameDiagnostic, Diagnostic.numbers] using h)

theorem words_onAfterArgument (h : c.Writable base seen) (hseen : Fits seen) :
    GoesOn Words (Writable base seen) (onAfterArgument base c token) := by
  unfold onAfterArgument
  split
  · exact ⟨h.frames, h.pending, h.previous⟩
  · split
    · rintro _ ⟨⟩
    · rename_i frame frames hframes
      have hall := h.frames
      rw [hframes, List.forall_mem_cons] at hall
      obtain ⟨⟨harity, hoffset, hcount⟩, hrest⟩ := hall
      have hpopped : ({ c with frames } : Checker).Writable base seen :=
        ⟨hrest, h.pending, h.previous⟩
      simp only
      split
      · split
        · split
          · exact ⟨hrest, h.pending, h.previous⟩
          · exact hpopped
        · exact Writable.onAfterKey ⟨hrest, h.pending, h.previous⟩
      · have hargs : Fits frame.args := hseen.of_le hcount
        exact words_reject (by simpa [Diagnostic.numbers] using ⟨harity, hargs, hoffset⟩)

theorem words_openCall {nested : Bool} (ht : t.AritiesFit) (h : c.Writable base seen)
    (hseen : Fits seen) : GoesOn Words (Writable base seen) (openCall t base c nested token) := by
  unfold openCall
  refine (words_pendingName h).bind ?_
  intro name hname
  split
  · exact words_reject (by simpa [Tables.functionDiagnostic, Diagnostic.numbers] using hname)
  · rename_i shape hl
    refine words_onAfterArgument ⟨?_, h.pending, h.previous⟩ hseen
    exact List.forall_mem_cons.2 ⟨⟨ht.of_lookup hl, hname, Nat.zero_le _⟩, h.frames⟩

theorem words_onKey (h : c.Writable base seen) (htoken : Fits (base + token.offset)) :
    GoesOn Words (Writable base seen) (onKey base c token) := by
  unfold onKey
  split
  · exact ⟨h.frames, fun name hname => Option.some.inj hname ▸ htoken, h.previous⟩
  · split
    · rename_i previous _ hprevious
      split
      · exact words_reject (by simpa [Diagnostic.numbers] using h.previous previous hprevious)
      · exact h
    · exact h

theorem words_onKeyName (ht : t.AritiesFit) (h : c.Writable base seen) (hseen : Fits seen) :
    GoesOn Words (Writable base seen) (onKeyName t base c token) := by
  unfold onKeyName
  split
  · exact words_openCall ht h hseen
  · refine (words_pendingName h).bind ?_
    intro name hname
    refine (words_checkName hname).bind ?_
    intro _ _
    exact Writable.onAfterKey ⟨h.frames, h.pending, h.previous⟩

/-- Here arguments are counted: one for a token at most. -/
theorem words_onArgument (h : c.Writable base seen) (htoken : Fits (base + token.offset)) :
    GoesOn Words (Writable base (seen + 1)) (onArgument t base c token) := by
  unfold onArgument
  split
  · rintro _ ⟨⟩
  · rename_i frame frames hframes
    have hall := h.next.frames
    have hold := h.frames
    rw [hframes, List.forall_mem_cons] at hall hold
    have hcounted : ∀ f ∈ { frame with args := frame.args + 1 } :: frames,
        Fits f.shape.arity.minimum ∧ Fits (base + f.name.offset) ∧ f.args ≤ seen + 1 := by
      refine List.forall_mem_cons.2 ⟨⟨hall.1.1, hall.1.2.1, ?_⟩, hall.2⟩
      exact Nat.succ_le_succ hold.1.2.2
    simp only
    split
    · split
      · exact words_reject (by simpa [Diagnostic.numbers] using htoken)
      · split
        · exact words_reject (by simpa [Diagnostic.numbers] using htoken)
        · exact ⟨hcounted, h.pending, h.previous⟩
    · split
      · refine (words_checkName htoken).bind ?_
        intro _ _
        exact ⟨hcounted, h.pending, h.previous⟩
      · exact ⟨hcounted, h.pending, h.previous⟩
    · refine (words_previousToken h).bind ?_
      intro previous hprevious
      exact words_reject (by simpa [Diagnostic.numbers] using hprevious)
    · exact h.next

theorem words_onToken (ht : t.AritiesFit) (h : c.Writable base seen) (hseen : Fits seen)
    (htoken : Fits (base + token.offset)) :
    GoesOn Words (Writable base (seen + 1)) (onToken t base c token) := by
  have hlater : ∀ {x : Except CheckFault Checker}, GoesOn Words (Writable base seen) x →
      GoesOn Words (Writable base (seen + 1)) x := by
    intro x hx
    cases x with
    | ok c' => exact Writable.next hx
    | error fault => exact hx
  unfold onToken
  cases c.stage with
  | key => exact hlater (words_onKey h htoken)
  | keyName => exact hlater (words_onKeyName ht h hseen)
  | afterKey => exact h.onAfterKey.next
  | callName =>
    simp only
    split
    · exact ⟨h.next.frames, fun name hname => Option.some.inj hname ▸ htoken, h.previous⟩
    · exact h.next
  | nestedName =>
    simp only
    split
    · exact hlater (words_openCall ht h hseen)
    · exact h.next
  | argument => exact words_onArgument h htoken
  | afterArgument => exact hlater (words_onAfterArgument h hseen)

theorem words_check (ht : t.AritiesFit) (h : c.Writable base seen) (hseen : Fits seen)
    (htoken : Fits (base + token.offset)) :
    GoesOn Words (Writable base (seen + 1)) (check t base c token) := by
  unfold check
  refine (words_onToken ht h hseen htoken).bind ?_
  intro checked hchecked
  exact ⟨hchecked.frames, hchecked.pending, fun _ hsome => Option.some.inj hsome ▸ htoken⟩

theorem writable_of_run (ht : t.AritiesFit) (htokens : ∀ token ∈ tokens, Fits (base + token.offset))
    (hlength : Fits tokens.length) (h : tokens.foldlM (check t base) {} = .ok c) :
    c.Writable base tokens.length := by
  induction tokens using List.reverseRecOn generalizing c with
  | nil =>
    cases h
    exact ⟨by simp, nofun, nofun⟩
  | append_singleton before token ih =>
    rw [List.forall_mem_append] at htokens
    rw [List.length_append] at hlength
    have hbefore : Fits before.length := hlength.of_le (Nat.le_add_right _ _)
    obtain ⟨m, hm, hlast⟩ := foldlM_append_eq_ok.1 h
    rw [List.foldlM_cons, bind_eq_ok] at hlast
    obtain ⟨c', hcheck, hc⟩ := hlast
    cases hc
    have hnext := words_check ht (ih htokens.1 hbefore hm) hbefore (htokens.2 token (by simp))
    rw [hcheck] at hnext
    rw [List.length_append]
    exact hnext

/-! ## What a caller gets -/

theorem foldlM_outcome (t : Tables) (base : Int) (tokens : List Token) (c : Checker) :
    tokens.foldlM (outcome t base) c = (tokens.foldlM (check t base) c).mapError CheckFault.worded :=
  foldlM_mapError (fun _ _ => rfl) tokens c

theorem worded_rejected (d : Diagnostic) : (CheckFault.rejected d).worded = .rejected d ∨
    (CheckFault.rejected d).worded = .longNumber := by
  unfold CheckFault.worded
  simp only
  split
  · exact Or.inl rfl
  · exact Or.inr rfl

theorem worded_rejected_of_fits {d : Diagnostic} (h : ∀ n ∈ d.numbers, Fits n) :
    (CheckFault.rejected d).worded = .rejected d :=
  if_pos (Diagnostic.isSome_report?_iff.2 h)

theorem worded_rejected_of_not_fits {d : Diagnostic} {n : Int} (hmem : n ∈ d.numbers)
    (hlong : ¬ Fits n) : (CheckFault.rejected d).worded = .longNumber :=
  if_neg fun h => hlong (Diagnostic.isSome_report?_iff.1 h n hmem)

theorem rejects_of_run {fault : CheckFault} (h : tokens.foldlM (check t base) {} = .error fault) :
    Rejects fault := by
  obtain ⟨before, token, after, c, -, hbefore, hcheck⟩ := foldlM_eq_error.1 h
  obtain ⟨hbalanced, hprevious⟩ := balanced_of_run hbefore
  have hnext := goesOn_check t base token hbalanced hprevious
  rw [hcheck] at hnext
  exact hnext

theorem words_of_run {fault : CheckFault} (ht : t.AritiesFit)
    (htokens : ∀ token ∈ tokens, Fits (base + token.offset)) (hlength : Fits tokens.length)
    (h : tokens.foldlM (check t base) {} = .error fault) : Words fault := by
  obtain ⟨before, token, after, c, rfl, hbefore, hcheck⟩ := foldlM_eq_error.1 h
  rw [List.forall_mem_append, List.forall_mem_cons] at htokens
  rw [List.length_append] at hlength
  have hseen : Fits before.length := hlength.of_le (Nat.le_add_right _ _)
  have hnext := words_check ht (writable_of_run ht htokens.1 hseen hbefore) hseen htokens.2.1
  rw [hcheck] at hnext
  exact hnext

/-- **The checker is safe on any tokens.** Whatever tokens it is given, in any order, it can fail only by
rejecting the line or over a number that is too long to be written, never for something that is not there.
If the arities of the tables, the offsets and the number of tokens can be written, it can fail only by
rejecting the line. At every point before that its memory is safe. -/
theorem check_any_tokens (t : Tables) (base : Int) (tokens : List Token) :
    (∀ fault, tokens.foldlM (outcome t base) {} = .error fault →
      (∃ d, fault = .rejected d) ∨ fault = .longNumber) ∧
    (t.AritiesFit → (∀ token ∈ tokens, Fits (base + token.offset)) → Fits tokens.length →
      ∀ fault, tokens.foldlM (outcome t base) {} = .error fault → ∃ d, fault = .rejected d) ∧
    ∀ done c, done <+: tokens → done.foldlM (outcome t base) {} = .ok c → c.Safe := by
  refine ⟨?_, ?_, ?_⟩
  · intro fault h
    rw [foldlM_outcome] at h
    obtain ⟨found, hfound, rfl⟩ := mapError_eq_error_iff.1 h
    obtain ⟨d, rfl⟩ := rejects_of_run hfound
    rcases worded_rejected d with hrejected | hlong
    · exact Or.inl ⟨d, hrejected⟩
    · exact Or.inr hlong
  · intro ht htokens hlength fault h
    rw [foldlM_outcome] at h
    obtain ⟨found, hfound, rfl⟩ := mapError_eq_error_iff.1 h
    obtain ⟨d, rfl⟩ := rejects_of_run hfound
    exact ⟨d, worded_rejected_of_fits (words_of_run ht htokens hlength hfound d rfl)⟩
  · intro done c _ h
    rw [foldlM_outcome] at h
    obtain ⟨hbalanced, hprevious⟩ := balanced_of_run (mapError_eq_ok_iff.1 h)
    exact hbalanced.safe hprevious

/-- A comma ends the nested call of `null:[or:ip6ttl:ip6tos,:x,` without closing its bracket, which
still counts when the key is complete. One more bracket is passed over, and one more `or` is rejected
for its missing argument. -/
theorem check_any_tokens_unclosed_bracket :
    let name (value : String) : Token := ⟨.identifier, value, 0⟩
    let mark (kind : TokenKind) : Token := ⟨kind, "", 0⟩
    let tokens := [name "null", mark .colon, mark .lbracket, name "or", mark .colon, name "ip6ttl",
      mark .colon, name "ip6tos", mark .comma, mark .colon, name "x", mark .comma, mark .rbracket]
    let more := tokens ++ [name "or", mark .colon, name "ip6ttl", mark .rbracket]
    (∃ c, tokens.foldlM (outcome .builtin 0) {} = .ok c ∧ c.Safe ∧ c.nestedCalls = 0 ∧
      c.depth = 1) ∧
    Tables.builtin.AritiesFit ∧ (∀ token ∈ more, Fits (0 + token.offset)) ∧ Fits more.length ∧
      ∃ d, more.foldlM (outcome .builtin 0) {} = .error (.rejected d) := by
  intro name mark tokens more
  have hrun : tokens.foldlM (outcome .builtin 0) {} =
      .ok ⟨.key, [], 1, some (name "or"), some (mark .rbracket)⟩ := by
    rfl
  have hfails : ∃ fault, more.foldlM (outcome .builtin 0) {} = .error fault := by
    refine ⟨(CheckFault.rejected (.arityMismatch "or" (.atLeast 2) 1 0)).worded, ?_⟩
    rw [foldlM_outcome]
    rfl
  obtain ⟨fault, hfault⟩ := hfails
  have hsafe := (check_any_tokens .builtin 0 tokens).2.2 tokens _ (List.prefix_refl _) hrun
  have ht : Tables.builtin.AritiesFit := by decide
  have hoffsets : ∀ token ∈ more, Fits (0 + token.offset) := by decide
  have hlength : Fits more.length := by decide
  obtain ⟨d, hd⟩ := (check_any_tokens .builtin 0 more).2.1 ht hoffsets hlength fault hfault
  exact ⟨⟨_, hrun, hsafe, rfl, rfl⟩, ht, hoffsets, hlength, d, hfault.trans (congrArg _ hd)⟩

/-- A call with one argument of a function whose arity is too long to be written is not rejected. Neither
is an unknown name whose offset is too long. -/
theorem check_long_numbers :
    let called := longCall ++ [Token.stop 3]
    let named := [⟨.identifier, "x", 1⟩, Token.stop 2]
    called.foldlM (outcome longTables 0) {} = .error .longNumber ∧
      named.foldlM (outcome .builtin (longCount - 1)) {} = .error .longNumber := by
  intro called named
  constructor
  · let frame : CallFrame := ⟨longShape, ⟨.identifier, "f", 0⟩, false, 1⟩
    have hcall : longCall.foldlM (check longTables 0) {} =
        .ok ⟨.afterArgument, [frame], 0, some frame.name, some ⟨.identifier, "x", 2⟩⟩ := rfl
    have hend : called.foldlM (check longTables 0) {} =
        .error (.rejected (.arityMismatch "f" longShape.arity 1 0)) := by
      rw [List.foldlM_append, hcall]
      change (check longTables 0 _ (Token.stop 3) >>= pure) = _
      have haccepts : frame.shape.arity.accepts frame.args = false := longShape_accepts_one
      simp only [check, onToken, onAfterArgument, haccepts]
      rfl
    rw [foldlM_outcome, hend]
    exact congrArg Except.error (worded_rejected_of_not_fits List.mem_cons_self not_fits_longShape)
  · have hend : named.foldlM (check .builtin (longCount - 1)) {} =
        .error (.rejected (Tables.builtin.nameDiagnostic "x" (longCount - 1 + 1))) := rfl
    have hlong : ¬ Fits ((longCount : Int) - 1 + 1) := by
      rw [Int.sub_add_cancel]
      exact not_fits_longCount
    rw [foldlM_outcome, hend]
    exact congrArg Except.error (worded_rejected_of_not_fits List.mem_cons_self hlong)

end TrafficKey.Checker
