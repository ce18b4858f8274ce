import TrafficKey.Proofs.Accuracy
import TrafficKey.Proofs.Progress
import TrafficKey.Proofs.RoundTrip

/-!
# Which diagnostics can be worded

The wording of a diagnostic writes its offset and, for a wrong number of arguments, the arity and the
count, and a number of more than 4300 digits cannot be written. Offsets are those of tokens, arities come
from the registry, and nothing that is counted is more than the tokens that were read. So if the arities
of the tables and the numbers of the input can be written, every diagnostic of the direct parser can be
worded. This is proved by going through what a token can do and what it can be refused for.

A function whose arity cannot be written can be declared all the same. A wrong number of arguments for it
has no wording.
-/

namespace TrafficKey

/-! ## Numbers that can be written -/

namespace Decimal

theorem fits_iff {n : Int} : Fits n ↔ n.natAbs < 10 ^ maxDigits :=
  Nat.length_toDigits_le_iff (by decide) (by decide)

/-- What is no larger than an integer that can be written can be written. -/
theorem Fits.mono {m n : Int} (h : Fits n) (hle : m.natAbs ≤ n.natAbs) : Fits m :=
  fits_iff.2 (Nat.lt_of_le_of_lt hle (fits_iff.1 h))

/-- A count can be written if a count that is no smaller can. -/
theorem Fits.of_le {m n : Nat} (h : Fits n) (hle : m ≤ n) : Fits m :=
  h.mono (by simpa using hle)

/-- What writes a number and goes on has a result if the number can be written and the rest has one. -/
theorem isSome_write?_bind_iff {α : Type} {n : Int} {f : String → Option α} {p : Prop}
    (hf : ∀ text, (f text).isSome = true ↔ p) :
    (write? n >>= f).isSome = true ↔ Fits n ∧ p := by
  unfold write?
  split
  · rename_i hfits
    simpa [hfits] using hf _
  · rename_i hlong
    simp [hlong]

end Decimal

open Decimal (Fits)

/-! ## The numbers of a diagnostic -/

/-- The numbers that the wording of a diagnostic writes. -/
def Diagnostic.numbers : Diagnostic → List Int
  | .malformed offset _ _ => [offset]
  | .unknownName _ offset _ => [offset]
  | .unknownFunction _ offset _ => [offset]
  | .arityMismatch _ expected got offset => [expected.minimum, got, offset]
  | .emptyDefinition => []

theorem Report.isSome_make?_iff {kind : DiagnosticKind} {offset : Int} {detail : String} :
    (make? kind (some offset) detail).isSome = true ↔ Fits offset := by
  refine (Decimal.isSome_write?_bind_iff (p := True) ?_).trans (and_iff_left trivial)
  simp

/-- A diagnostic can be worded just when all its numbers can be written. -/
theorem Diagnostic.isSome_report?_iff {d : Diagnostic} :
    d.report?.isSome = true ↔ ∀ n ∈ d.numbers, Fits n := by
  cases d with
  | malformed | unknownName | unknownFunction =>
    simp [report?, detail?, offset?, numbers, Report.isSome_make?_iff]
  | emptyDefinition => simp [report?, detail?, offset?, numbers, Report.make?]
  | arityMismatch function expected got offset =>
    simp only [numbers, List.forall_mem_cons, List.not_mem_nil, false_implies, implies_true, and_true]
    simp only [report?, detail?, offset?, Arity.text?, arityDetail?, bind_assoc, pure_bind]
    rw [Decimal.isSome_write?_bind_iff]
    intro minimum
    rw [Decimal.isSome_write?_bind_iff]
    intro count
    exact Report.isSome_make?_iff

/-- A diagnostic whose place can be written can be worded if its detail can. -/
theorem Diagnostic.isSome_report?_of_offset {d : Diagnostic} (h : ∀ n, d.offset? = some n → Fits n) :
    d.report?.isSome = d.detail?.isSome := by
  unfold report?
  cases d.detail? with
  | none => rfl
  | some detail =>
    change (Report.make? d.kind d.offset? detail).isSome = true
    cases hoffset : d.offset? with
    | none => rfl
    | some n => exact Report.isSome_make?_iff.2 (h n hoffset)

/-- The arity of every function can be written. -/
def Tables.AritiesFit (t : Tables) : Prop :=
  ∀ shape ∈ t.registry.entries, Fits shape.arity.minimum

instance : DecidablePred Tables.AritiesFit := fun t =>
  inferInstanceAs (Decidable (∀ shape ∈ t.registry.entries, Fits shape.arity.minimum))

theorem Tables.AritiesFit.of_lookup {t : Tables} {name : String} {shape : FunctionShape}
    (h : t.AritiesFit) (hl : t.registry.lookup name = some shape) : Fits shape.arity.minimum :=
  h shape (List.mem_of_find?_eq_some hl)

namespace Direct

theorem Halt.ofDiagnostic_eq_or (d : Diagnostic) :
    Halt.ofDiagnostic d = .rejected d ∨ Halt.ofDiagnostic d = .longNumber := by
  unfold Halt.ofDiagnostic
  split
  · exact Or.inl rfl
  · exact Or.inr rfl

theorem Halt.ofDiagnostic_of_fits {d : Diagnostic} (h : ∀ n ∈ d.numbers, Fits n) :
    Halt.ofDiagnostic d = .rejected d :=
  if_pos (Diagnostic.isSome_report?_iff.2 h)

theorem Halt.ofDiagnostic_of_not_fits {d : Diagnostic} {n : Int} (hmem : n ∈ d.numbers)
    (hlong : ¬ Fits n) : Halt.ofDiagnostic d = .longNumber :=
  if_neg fun h => hlong (Diagnostic.isSome_report?_iff.1 h n hmem)

variable {t : Tables} {s s' : State} {token : Token} {j : Rejection} {stop : Int}

/-! ## What the reader remembers -/

/-- The tokens that a stage remembers, apart from the names of its open calls. -/
def Stage.tokens : Stage → List Token
  | .afterComma comma => [comma]
  | .keyName name => [name]
  | .argument colon _ _ => [colon]
  | .named name _ _ => [name]
  | .start | .afterArgument _ _ | .opened _ _ => []

/-- What has been read of a call can be written, once `read` tokens have been read. -/
structure OpenCall.Writable (read : Nat) (call : OpenCall) : Prop where
  arity : Fits call.shape.arity.minimum
  offset : Fits call.name.offset
  count : call.args.length ≤ read

/-- All numbers that the state remembers can be written; a count is bounded by the tokens read. -/
structure State.Writable (s : State) : Prop where
  tokens : ∀ token ∈ s.stage.tokens, Fits token.offset
  calls : ∀ call ∈ s.stage.calls, call.Writable s.read

theorem OpenCall.Writable.next {read : Nat} {call : OpenCall} (h : call.Writable read) :
    call.Writable (read + 1) :=
  ⟨h.arity, h.offset, Nat.le_succ_of_le h.count⟩

/-- An argument is one token at least. -/
theorem OpenCall.Writable.push {read : Nat} {call : OpenCall} (h : call.Writable read)
    (arg : Argument) : (call.push arg).Writable (read + 1) := by
  refine ⟨h.arity, h.offset, ?_⟩
  change (call.args ++ [arg]).length ≤ read + 1
  rw [List.length_append]
  exact Nat.succ_le_succ h.count

theorem Step.writable (ht : t.AritiesFit) (htoken : Fits token.offset) (h : Step t s token s')
    (hs : s.Writable) : s'.Writable := by
  obtain ⟨htokens, hcalls⟩ := hs
  have hold : ∀ call ∈ s.stage.calls, call.Writable (s.read + 1) :=
    fun call hcall => (hcalls call hcall).next
  cases h with
  | keyName | endName | endComputed => exact ⟨by simpa [Stage.tokens] using htoken, by simp [Stage.calls]⟩
  | openKey hk hl =>
    have hname := htokens _ List.mem_cons_self
    refine ⟨by simpa [Stage.tokens] using htoken, ?_⟩
    simpa [Stage.calls] using ⟨ht.of_lookup hl, hname, Nat.zero_le _⟩
  | openNested hk hl =>
    have hname := htokens _ List.mem_cons_self
    refine ⟨by simpa [Stage.tokens] using htoken, ?_⟩
    exact List.forall_mem_cons.2 ⟨⟨ht.of_lookup hl, hname, Nat.zero_le _⟩, hold⟩
  | literal | key =>
    rw [Stage.calls, List.forall_mem_cons] at hcalls
    refine ⟨by simp [Stage.tokens], List.forall_mem_cons.2 ⟨hcalls.1.push _, ?_⟩⟩
    exact fun call hcall => (hcalls.2 call hcall).next
  | closeBracket =>
    -- the inner call is an argument of the one around it
    rw [Stage.calls, List.forall_mem_cons, List.forall_mem_cons] at hcalls
    refine ⟨by simp [Stage.tokens], List.forall_mem_cons.2 ⟨hcalls.2.1.push _, ?_⟩⟩
    exact fun call hcall => (hcalls.2.2 call hcall).next
  | openBracket => exact ⟨by simp [Stage.tokens], hold⟩
  | nextArgument | nestedName => exact ⟨by simpa [Stage.tokens] using htoken, hold⟩

/-! ## What it reports -/

theorem OpenCall.Writable.numbers {read : Nat} {call : OpenCall} (h : call.Writable read)
    (hread : Fits read) : ∀ n ∈ call.arityDiagnostic.numbers, Fits n := by
  have hcount : Fits call.args.length := hread.of_le h.count
  simpa [OpenCall.arityDiagnostic, Diagnostic.numbers] using ⟨h.arity, hcount, h.offset⟩

theorem Refusal.writable (h : Refusal t s token j) (htoken : Fits token.offset) (hs : s.Writable)
    (hread : Fits s.read) : ∀ n ∈ j.diagnostic.numbers, Fits n := by
  obtain ⟨htokens, hcalls⟩ := hs
  cases h with
  | misfit | tooDeep | unknownArgument =>
    simpa [Diagnostic.numbers, Tables.nameDiagnostic] using htoken
  | unknownFunction hstage =>
    rcases hstage with rfl | ⟨call, outer, rfl⟩ <;>
      simpa [Diagnostic.numbers, Tables.functionDiagnostic, Stage.tokens] using htokens
  | unknownName => simpa [Diagnostic.numbers, Tables.nameDiagnostic, Stage.tokens] using htokens
  | arity => exact (hcalls _ List.mem_cons_self).numbers hread

theorem Shortfall.writable (h : Shortfall t stop s j) (hstop : Fits stop) (hs : s.Writable)
    (hread : Fits s.read) : ∀ n ∈ j.diagnostic.numbers, Fits n := by
  obtain ⟨htokens, hcalls⟩ := hs
  cases h with
  | empty => simp [Diagnostic.numbers]
  | afterComma | afterColon => simpa [Diagnostic.numbers, Stage.tokens] using htokens
  | unclosed | functionName | colonAfterName => simpa [Diagnostic.numbers] using hstop
  | unknownName => simpa [Diagnostic.numbers, Tables.nameDiagnostic, Stage.tokens] using htokens
  | arity => exact (hcalls _ List.mem_cons_self).numbers hread

/-! ## A whole line -/

variable {line : String} {tokens : List Token} {d : Diagnostic}

theorem writable_start (read depth : Nat) : State.Writable { read, depth } :=
  ⟨by simp [Stage.tokens], by simp [Stage.calls]⟩

theorem feed_writable (ht : t.AritiesFit) (htokens : ∀ token ∈ tokens, Fits token.offset)
    (h : feed t {} tokens = .ok s) : s.Writable := by
  induction tokens using List.reverseRecOn generalizing s with
  | nil =>
    cases h
    exact writable_start 0 0
  | append_singleton before token ih =>
    rw [List.forall_mem_append] at htokens
    obtain ⟨m, hbefore, hstep⟩ := feed_snoc.1 h
    exact hstep.writable ht (htokens.2 token (by simp)) (ih htokens.1 hbefore)

theorem lineEnd_le (line : String) : lineEnd line ≤ line.length := by
  obtain ⟨left, right, hline, hlength, -, -⟩ := Text.exists_blanks line.toList
  have htotal := congrArg List.length hline
  rw [String.length_toList, List.length_append, List.length_append] at htotal
  unfold lineEnd
  omega

/-- No token is empty, so a line has no more tokens than characters. -/
theorem length_lineTokens_le (h : lineTokens line = .ok tokens) : tokens.length ≤ line.length := by
  have htiles := tiles_of_lineTokens h
  have hone : ∀ token ∈ tokens, 1 ≤ token.value.toList.length := by
    intro token htoken
    have hvalue := htiles.matches_value token htoken
    rcases hchars : token.value.toList with _ | ⟨c, cs⟩
    · rw [hchars] at hvalue
      cases hkind : token.kind <;> simp [hkind, TokenKind.Matches] at hvalue
    · simp
  have hspelling : ∀ tokens : List Token, (∀ token ∈ tokens, 1 ≤ token.value.toList.length) →
      tokens.length ≤ (spelling tokens).length := by
    intro tokens hone
    induction tokens with
    | nil => simp
    | cons token tokens ih =>
      rw [List.forall_mem_cons] at hone
      have hrest := ih hone.2
      rw [spelling_cons, List.length_append, List.length_cons]
      omega
  have hle := hspelling tokens hone
  rw [htiles.spelling_eq] at hle
  have hend := lineEnd_le line
  unfold lineEnd at hend
  omega

theorem fits_offset_of_mem (h : lineTokens line = .ok tokens) (hline : Fits line.length)
    (hmem : token ∈ tokens) : Fits token.offset := by
  obtain ⟨before, after, rfl⟩ := List.append_of_mem hmem
  obtain ⟨n, hn, -, -, hle⟩ := standsAt_of_token h
  have hend := lineEnd_le line
  rw [hn]
  exact hline.of_le (by omega)

/-- A place in a line can be written if the length of the line can. -/
theorem fits_offset_of_parse_eq_error {offset : Int} (h : parse t line = .error d)
    (hlength : Fits line.length) (hoffset : d.offset? = some offset) : Fits offset := by
  have hline : Text.trim line.toList ≠ [] := by
    intro hblank
    rw [parse_blank hblank] at h
    cases h
    cases hoffset
  obtain ⟨place, hplace, -, hle⟩ := (accurate_of_parse_eq_error hline h).1
  have hend := lineEnd_le line
  rw [Text.length_trimRight hline] at hle
  unfold lineEnd at hend
  cases hoffset.symm.trans hplace
  exact hlength.of_le (by omega)

/-- Every diagnostic of a line can be worded, if the arities and the length of the line can be
written. -/
theorem fits_of_parse (ht : t.AritiesFit) (hline : Fits line.length) (h : parse t line = .error d) :
    ∀ n ∈ d.numbers, Fits n := by
  rcases parse_eq_error h with ⟨u, hscan, rfl⟩ | ⟨tokens, j, hlex, hread, rfl⟩
  · -- a character that starts no token stands inside the line
    obtain ⟨before, after, htrim, hoffset, -, -⟩ := scan_eq_error hscan
    have hend := lineEnd_le line
    have htotal : (Text.trim line.toList).length = before.length + (after.length + 1) := by
      rw [htrim, List.length_append, List.length_cons]
    unfold lineEnd at hend
    simpa [Unmatched.diagnostic, Diagnostic.numbers] using hline.of_le (by omega : u.offset ≤ line.length)
  · have hoffsets : ∀ token ∈ tokens, Fits token.offset := fun token => fits_offset_of_mem hlex hline
    have hcount := length_lineTokens_le hlex
    rcases readAll_eq_error_iff.1 hread with
      ⟨before, token, after, s, rfl, hfeed, hrefused⟩ | ⟨s, hfeed, hshort⟩
    · rw [List.forall_mem_append, List.forall_mem_cons] at hoffsets
      have hs := feed_writable ht hoffsets.1 hfeed
      have hread : s.read = 0 + before.length := feed_read hfeed
      rw [List.length_append, List.length_cons] at hcount
      exact hrefused.writable hoffsets.2.1 hs (hline.of_le (by omega))
    · have hs := feed_writable ht hoffsets hfeed
      have hread : s.read = 0 + tokens.length := feed_read hfeed
      exact hshort.writable (hline.of_le (lineEnd_le line)) hs (hline.of_le (by omega))

theorem outcome_of_parse_error (ht : t.AritiesFit) (hline : Fits line.length)
    (h : parse t line = .error d) : outcome t line = .error (.rejected d) := by
  unfold outcome
  rw [h]
  exact congrArg Except.error (Halt.ofDiagnostic_of_fits (fits_of_parse ht hline h))

/-- A text is rejected with the diagnostic that is found, if this can be worded. -/
theorem outcome_eq_rejected_iff :
    outcome t line = .error (.rejected d) ↔ parse t line = .error d ∧ d.report?.isSome = true := by
  unfold outcome
  rw [mapError_eq_error_iff]
  constructor
  · rintro ⟨e, hparse, hhalt⟩
    unfold Halt.ofDiagnostic at hhalt
    split at hhalt
    · rename_i hworded
      cases hhalt
      exact ⟨hparse, hworded⟩
    · cases hhalt
  · rintro ⟨hparse, hworded⟩
    exact ⟨d, hparse, if_pos hworded⟩

end Direct

/-! ## An arity that cannot be written -/

/-- The least count that cannot be written. It is never computed. -/
@[irreducible]
def longCount : Nat := 10 ^ Decimal.maxDigits

theorem longCount_eq : longCount = 10 ^ Decimal.maxDigits := by
  unfold longCount
  rfl

theorem not_fits_longCount : ¬ Fits longCount := by
  intro h
  have hlt := Decimal.fits_iff.1 h
  rw [Int.natAbs_natCast, ← longCount_eq] at hlt
  exact Nat.lt_irrefl _ hlt

theorem one_lt_longCount : 1 < longCount :=
  Nat.lt_of_lt_of_eq (Nat.one_lt_pow (by decide) (by decide)) longCount_eq.symm

theorem literalKinds_ne_nil : [ArgKind.literal] ≠ [] := List.cons_ne_nil _ _

/-- A function that takes more arguments than can be written. -/
def longShape : FunctionShape where
  name := "f"
  arity := .exact longCount
  kinds := [.literal]
  kinds_ne_nil := literalKinds_ne_nil
  one_le_minimum := Int.ofNat_le.2 (Nat.le_of_lt one_lt_longCount)

theorem not_fits_longShape : ¬ Fits longShape.arity.minimum := not_fits_longCount

/-- The built-in key names with this function. -/
def longTables : Tables := ⟨.builtin, ⟨[longShape], by decide⟩⟩

/-- A call of the function with one argument. -/
def longCall : List Token := [⟨.identifier, "f", 0⟩, ⟨.colon, ":", 1⟩, ⟨.identifier, "x", 2⟩]

theorem longShape_accepts_one : longShape.arity.accepts 1 = false := by
  have hne : (1 : Int) ≠ longCount := by
    have hlt := one_lt_longCount
    omega
  simpa [longShape, Arity.accepts, Arity.exact] using hne

namespace Direct

/-- At the end of the call its number of arguments should be reported. -/
theorem longCall_reported (stop : Int) :
    ∃ s j, feed longTables {} longCall = .ok s ∧ finish longTables s stop = .error j ∧
      Halt.ofDiagnostic j.diagnostic = .longNumber := by
  let call : OpenCall := ⟨longShape, ⟨.identifier, "f", 0⟩, [.literal "x"]⟩
  have hend : Shortfall longTables stop ⟨.afterArgument call [], [], 3, 0⟩
      ⟨call.arityDiagnostic, 3, 0⟩ := .arity longShape_accepts_one
  refine ⟨_, _, ?_, hend.finish_eq, ?_⟩
  · unfold longCall
    rw [feed_cons (.keyName (Or.inl rfl) rfl), feed_cons (.openKey rfl rfl),
      feed_cons (.literal rfl (by decide))]
    rfl
  · exact Halt.ofDiagnostic_of_not_fits List.mem_cons_self not_fits_longShape

end Direct

end TrafficKey
