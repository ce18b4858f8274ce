import TrafficKey.Parse.Staged
import TrafficKey.Proofs.Accuracy
import TrafficKey.Proofs.Offsets

/-!
# Blanks around a line

Blanks around a line are trimmed off, and those in front of it move every offset. The direct parser
counts offsets in the untrimmed line. The staged parser counts them in the trimmed one and adds the
indentation wherever it reports: in the checker, for a character that starts no token, and for a token
that the grammar refuses. Each of these places adds it once, so both parsers give with blanks around a
line what they give without them, moved by the blanks in front.
-/

namespace TrafficKey

/-! ## Trimming -/

namespace Text

variable {left right cs : List Char}

theorem trimRight_append_of_blank (h : ∀ c ∈ right, isBlank c = true) (cs : List Char) :
    trimRight (cs ++ right) = trimRight cs := by
  have hreverse : ∀ c ∈ right.reverse, isBlank c = true := fun c hc => h c (List.mem_reverse.1 hc)
  unfold trimRight
  rw [List.reverse_append, List.dropWhile_append_of_pos hreverse]

theorem trim_around (hleft : ∀ c ∈ left, isBlank c = true) (hright : ∀ c ∈ right, isBlank c = true)
    (cs : List Char) : trim (left ++ cs ++ right) = trim cs := by
  have hnothing : right.dropWhile isBlank = [] := List.dropWhile_eq_nil_iff.2 hright
  unfold trim trimLeft
  rw [List.append_assoc, List.dropWhile_append_of_pos hleft, List.dropWhile_append]
  split
  · -- without a character that is not blank there is nothing left to trim
    rename_i hblank
    rw [hnothing, List.isEmpty_iff.1 hblank]
  · exact trimRight_append_of_blank hright _

theorem indent_around (hleft : ∀ c ∈ left, isBlank c = true) (hcs : trim cs ≠ []) :
    indent (left ++ cs ++ right) = left.length + indent cs := by
  have hstop : (cs.takeWhile isBlank).length ≠ cs.length := by
    intro hall
    have hblank : cs.takeWhile isBlank = cs := (List.takeWhile_prefix _).eq_of_length hall
    have hrest : trimLeft cs = [] := List.dropWhile_eq_nil_iff.2 (List.takeWhile_eq_self_iff.1 hblank)
    exact hcs (by rw [trim, hrest]; rfl)
  unfold indent
  rw [List.append_assoc, List.takeWhile_append_of_pos hleft, List.takeWhile_append, if_neg hstop,
    List.length_append]

end Text

theorem Diagnostic.shift_add (m n : Int) (d : Diagnostic) : d.shift (m + n) = (d.shift n).shift m := by
  cases d <;> simp [Diagnostic.shift, Int.add_assoc]

/-! ## Moved failures -/

/-- The fault `n` characters further right. -/
def CheckFault.shift (n : Int) : CheckFault → CheckFault
  | .rejected d => .rejected (d.shift n)
  | fault => fault

/-- The failure `n` characters further right. -/
def Staged.Failure.shift (n : Int) : Staged.Failure → Staged.Failure
  | .rejected d => .rejected (d.shift n)
  | failure => failure

/-! ## The checker -/

namespace Checker

variable (t : Tables) (n base : Int) (c : Checker) (token : Token)

theorem checkName_shift :
    checkName t (n + base) token = (checkName t base token).mapError (CheckFault.shift n) := by
  unfold checkName Tables.nameDiagnostic
  cases t.catalog.lookup token.value with
  | some entry => rfl
  | none => rw [Int.add_assoc]; rfl

theorem onAfterArgument_shift :
    onAfterArgument (n + base) c token =
      (onAfterArgument base c token).mapError (CheckFault.shift n) := by
  unfold onAfterArgument
  by_cases hcolon : token.kind = .colon
  · rw [if_pos hcolon, if_pos hcolon]
    rfl
  · rw [if_neg hcolon, if_neg hcolon]
    cases c.frames with
    | nil => rfl
    | cons frame frames =>
      by_cases ha : frame.shape.arity.accepts frame.args = true
      · dsimp only
        rw [if_pos ha]
        split_ifs <;> rfl
      · dsimp only
        rw [if_neg ha, if_neg ha, Int.add_assoc]
        rfl

theorem pendingName_shift : c.pendingName = c.pendingName.mapError (CheckFault.shift n) := by
  unfold pendingName
  cases c.pending <;> rfl

theorem openCall_shift (nested : Bool) :
    openCall t (n + base) c nested token =
      (openCall t base c nested token).mapError (CheckFault.shift n) := by
  unfold openCall
  rw [mapError_bind, ← pendingName_shift]
  refine bind_congr fun name => ?_
  cases t.registry.lookup name.value with
  | some shape => exact onAfterArgument_shift n base _ token
  | none =>
    unfold Tables.functionDiagnostic
    rw [Int.add_assoc]
    rfl

theorem onKey_shift :
    onKey (n + base) c token = (onKey base c token).mapError (CheckFault.shift n) := by
  unfold onKey
  split
  · rfl
  · split
    · split
      · rw [Int.add_assoc]
        rfl
      · rfl
    · rfl

theorem onKeyName_shift :
    onKeyName t (n + base) c token = (onKeyName t base c token).mapError (CheckFault.shift n) := by
  unfold onKeyName
  split
  · exact openCall_shift t n base c token false
  · rw [mapError_bind, ← pendingName_shift]
    refine bind_congr fun name => ?_
    rw [mapError_bind, checkName_shift]
    rfl

theorem onArgument_shift :
    onArgument t (n + base) c token =
      (onArgument t base c token).mapError (CheckFault.shift n) := by
  unfold onArgument
  cases c.frames with
  | nil => rfl
  | cons frame frames =>
    dsimp only
    cases token.kind with
    | lbracket =>
      dsimp only
      rw [Int.add_assoc]
      split_ifs <;> rfl
    | identifier =>
      dsimp only
      rw [checkName_shift]
      split_ifs
      · rw [mapError_bind]
        rfl
      · rfl
    | eof =>
      dsimp only
      unfold previousToken
      cases c.previous with
      | none => rfl
      | some previous =>
        -- an argument that is missing at the end is reported at the token before
        change reject (.malformed (n + base + previous.offset) _ _) = _
        rw [Int.add_assoc]
        rfl
    | colon | comma | rbracket => rfl

theorem onToken_shift :
    onToken t (n + base) c token = (onToken t base c token).mapError (CheckFault.shift n) := by
  unfold onToken
  cases c.stage with
  | key => exact onKey_shift n base c token
  | keyName => exact onKeyName_shift t n base c token
  | afterKey => rfl
  | callName =>
    dsimp only
    split_ifs <;> rfl
  | nestedName =>
    dsimp only
    split_ifs
    · exact openCall_shift t n base c token true
    · rfl
  | argument => exact onArgument_shift t n base c token
  | afterArgument => exact onAfterArgument_shift n base c token

/-- The checker adds the base to every offset that it reports, once. -/
theorem check_shift :
    check t (n + base) c token = (check t base c token).mapError (CheckFault.shift n) := by
  unfold check
  rw [onToken_shift, mapError_bind]
  rfl

end Checker

theorem Outline.Fault.diagnostic_shift (n base : Int) (length : Nat) (fault : Outline.Fault) :
    fault.diagnostic (n + base) length = (fault.diagnostic base length).shift n := by
  cases fault <;> simp [Outline.Fault.diagnostic, Diagnostic.shift, Int.add_assoc]

/-! ## The staged parser -/

namespace Staged

variable {σ α : Type} (e : Outline.Engine σ) (t : Tables) (n base length : Nat)

theorem ofCheckFault_shift (n : Int) (fault : CheckFault) :
    ofCheckFault (fault.shift n) = (ofCheckFault fault).shift n := by
  cases fault <;> rfl

theorem check_mapError_shift (c : Checker) (token : Token) :
    (c.check t (n + base : Nat) token).mapError ofCheckFault =
      ((c.check t base token).mapError ofCheckFault).mapError (Failure.shift n) := by
  rw [Int.natCast_add, Checker.check_shift]
  cases c.check t base token with
  | ok c' => rfl
  | error fault => exact congrArg Except.error (ofCheckFault_shift n fault)

theorem grammar_shift (r : Except Outline.Unexpected α) :
    grammar (n + base) length r = (grammar base length r).mapError (Failure.shift n) := by
  cases r with
  | ok a => rfl
  | error u =>
    have hfault := u.fault.diagnostic_shift n base length
    rw [← Int.natCast_add] at hfault
    exact congrArg (fun d => Except.error (Failure.rejected d)) hfault

theorem step_shift (s : State σ) (token : Token) :
    step e t (n + base) length s token =
      (step e t base length s token).mapError (Failure.shift n) := by
  unfold step
  rw [check_mapError_shift, mapError_bind]
  refine bind_congr fun c => ?_
  rw [grammar_shift, mapError_bind]
  rfl

theorem finish_shift (s : State σ) :
    finish e t (n + base) length s = (finish e t base length s).mapError (Failure.shift n) := by
  unfold finish
  dsimp only
  rw [check_mapError_shift, mapError_bind]
  exact bind_congr fun c => grammar_shift n base length _

/-! ### Resolving an outline reports no place -/

/-- No failure of the outcome has a place. -/
def Placeless (x : Except Failure α) : Prop :=
  ∀ n, x.mapError (Failure.shift n) = x

variable {t}

theorem placeless_pure (a : α) : Placeless (pure a) := fun _ => rfl

theorem Placeless.bind {β : Type} {x : Except Failure α} {f : α → Except Failure β}
    (hx : Placeless x) (hf : ∀ a, Placeless (f a)) : Placeless (x >>= f) := by
  intro n
  rw [mapError_bind, hx n]
  exact bind_congr fun a => hf a n

theorem Placeless.mapM {β : Type} {f : α → Except Failure β} (hf : ∀ a, Placeless (f a))
    (xs : List α) : Placeless (xs.mapM f) := by
  induction xs with
  | nil => exact placeless_pure []
  | cons x xs ih =>
    rw [List.mapM_cons]
    exact (hf x).bind fun y => ih.bind fun ys => placeless_pure (y :: ys)

theorem placeless_resolveName (name : Token) : Placeless (resolveName t name) := by
  intro n
  unfold resolveName
  cases t.catalog.lookup name.value <;> rfl

theorem placeless_resolveFunction (name : Token) : Placeless (resolveFunction t name) := by
  intro n
  unfold resolveFunction
  cases t.registry.lookup name.value <;> rfl

theorem placeless_resolveBare (kind : Option ArgKind) (name : Token) :
    Placeless (resolveBare t kind name) := by
  unfold resolveBare
  split_ifs
  · exact (placeless_resolveName name).bind fun entry => placeless_pure _
  · exact placeless_pure _

mutual

theorem placeless_resolveArgument :
    ∀ (kind : Option ArgKind) (arg : Outline.Argument), Placeless (resolveArgument t kind arg)
  | kind, .bare name => by
    rw [resolveArgument]
    exact placeless_resolveBare kind name
  | kind, .nested name args => by
    rw [resolveArgument]
    exact (placeless_resolveFunction name).bind fun shape =>
      (placeless_resolveArguments shape 0 args).bind fun args => placeless_pure _

theorem placeless_resolveArguments (shape : FunctionShape) :
    ∀ (i : Nat) (args : List Outline.Argument), Placeless (resolveArguments t shape i args)
  | _, [] => by
    rw [resolveArguments]
    exact placeless_pure []
  | i, arg :: args => by
    rw [resolveArguments]
    exact (placeless_resolveArgument (shape.kindAt i) arg).bind fun head =>
      (placeless_resolveArguments shape (i + 1) args).bind fun tail => placeless_pure _

end

theorem placeless_resolveKey (key : Outline.Key) : Placeless (resolveKey t key) := by
  cases key with
  | bare name => exact (placeless_resolveName name).bind fun entry => placeless_pure _
  | call name args =>
    exact (placeless_resolveFunction name).bind fun shape =>
      (placeless_resolveArguments shape 0 args).bind fun args => placeless_pure _

theorem placeless_resolve (outline : List Outline.Key × Outline.Key) :
    Placeless (resolve t outline) := by
  unfold resolve
  exact (Placeless.mapM placeless_resolveKey outline.1).bind fun keys =>
    (placeless_resolveKey outline.2).bind fun last => placeless_pure _

/-! ### A whole line -/

variable (t)

/-- Reads a line that has no blanks around it, and that starts at `base`. -/
def readTrimmed (base : Nat) (cs : List Char) : Except Failure Definition := do
  let tokens ← (e.lex cs).mapError fun u =>
    .rejected ((Outline.ofUnmatched u).diagnostic base cs.length)
  let s ← tokens.foldlM (step e t base cs.length) ⟨{}, e.start⟩
  let outline ← finish e t base cs.length s
  resolve t outline

theorem readTrimmed_shift (cs : List Char) :
    readTrimmed e t (n + base) cs = (readTrimmed e t base cs).mapError (Failure.shift n) := by
  have hlex : (e.lex cs).mapError (fun u =>
        Failure.rejected ((Outline.ofUnmatched u).diagnostic (n + base : Nat) cs.length)) =
      ((e.lex cs).mapError fun u =>
        Failure.rejected ((Outline.ofUnmatched u).diagnostic base cs.length)).mapError
          (Failure.shift n) := by
    cases e.lex cs with
    | ok tokens => rfl
    | error u =>
      have hfault := (Outline.ofUnmatched u).diagnostic_shift n base cs.length
      rw [← Int.natCast_add] at hfault
      exact congrArg (fun d => Except.error (Failure.rejected d)) hfault
  -- the stages one after the other: lexer, checker and grammar in step, end of input, look-ups
  unfold readTrimmed
  rw [hlex, mapError_bind]
  refine bind_congr fun tokens => ?_
  rw [foldlM_mapError (step_shift e t n base cs.length), mapError_bind]
  refine bind_congr fun s => ?_
  rw [finish_shift, mapError_bind]
  exact bind_congr fun outline => (placeless_resolve outline n).symm

theorem parseWith_eq_readTrimmed (line : String) :
    parseWith e t line =
      if Text.trim line.toList = [] then .error (.rejected .emptyDefinition)
      else readTrimmed e t (Text.indent line.toList) (Text.trim line.toList) := rfl

end Staged

/-- **Blanks around a line only move offsets.** With blanks around it, a line is read as the same
definition or with the same diagnostic, whose offset is greater by the number of blanks in front, by
the direct parser and, whatever its engine is, by the staged parser. -/
theorem parse_within_blanks {σ : Type} (e : Outline.Engine σ) (t : Tables)
    {left right : String} (hleft : ∀ c ∈ left.toList, Text.isBlank c = true)
    (hright : ∀ c ∈ right.toList, Text.isBlank c = true) (text : String) :
    Direct.parse t (left ++ text ++ right) =
        (Direct.parse t text).mapError (Diagnostic.shift left.length) ∧
      Staged.parseWith e t (left ++ text ++ right) =
        (Staged.parseWith e t text).mapError (Staged.Failure.shift left.length) := by
  have hline : (left ++ text ++ right).toList = left.toList ++ text.toList ++ right.toList := by
    simp
  have htrim := Text.trim_around hleft hright text.toList
  rw [← hline] at htrim
  by_cases hblank : Text.trim text.toList = []
  · rw [hblank] at htrim
    rw [Direct.parse_blank htrim, Direct.parse_blank hblank, Staged.parseWith_eq_readTrimmed,
      Staged.parseWith_eq_readTrimmed, if_pos htrim, if_pos hblank]
    exact ⟨rfl, rfl⟩
  · have hindent : Text.indent (left ++ text ++ right).toList =
        left.length + Text.indent text.toList := by
      rw [hline, Text.indent_around hleft hblank, String.length_toList]
    constructor
    · rw [Direct.parse_eq_readTrimmed, Direct.parse_eq_readTrimmed, htrim, hindent]
      cases Direct.readTrimmed t (Text.trim text.toList) with
      | ok d => rfl
      | error d =>
        rw [Int.natCast_add]
        exact congrArg Except.error (d.shift_add left.length (Text.indent text.toList))
    · rw [Staged.parseWith_eq_readTrimmed, Staged.parseWith_eq_readTrimmed, htrim, hindent,
        if_neg hblank, if_neg hblank, Staged.readTrimmed_shift]

/-- A tabulator and a line end in front move a missing bracket by two. -/
theorem parse_within_blanks_unclosed :
    (∀ c ∈ "\t\n".toList, Text.isBlank c = true) ∧ (∀ c ∈ " ".toList, Text.isBlank c = true) ∧
      Direct.parse .builtin "or:[asn:x" = .error (.malformed 9 .closingBracket none) ∧
      Direct.parse .builtin ("\t\n" ++ "or:[asn:x" ++ " ") =
        .error (.malformed 11 .closingBracket none) ∧
      Staged.parse .builtin ("\t\n" ++ "or:[asn:x" ++ " ") =
        (Staged.parse .builtin "or:[asn:x").mapError (Staged.Failure.shift 2) := by
  have hleft : ∀ c ∈ "\t\n".toList, Text.isBlank c = true := List.all_eq_true.1 rfl
  have hright : ∀ c ∈ " ".toList, Text.isBlank c = true := List.all_eq_true.1 rfl
  have hline : Direct.parse .builtin "or:[asn:x" = .error (.malformed 9 .closingBracket none) := by
    cbv
  obtain ⟨hdirect, hstaged⟩ := parse_within_blanks Outline.engine .builtin hleft hright "or:[asn:x"
  rw [hline] at hdirect
  exact ⟨hleft, hright, hline, hdirect, hstaged⟩

end TrafficKey
