import TrafficKey.Proofs.Wording

/-!
# Calls with a wrong number of arguments

A call is read argument by argument, whatever the arity of its function is, and the arguments are
counted when the call ends. Past an exact arity an argument is taken as it is, unless the function
declares a kind for its place: if it declares more kinds than it takes arguments and a key name is asked
for at such a place, the argument is looked up before it is counted. So a wrong number of bare arguments
is reported as such if all the names that are looked up are there, and otherwise the first one that is
missing is reported. The report of a number of arguments names the arity, so there is none if the arity has
more than 4300 digits.
-/

namespace TrafficKey

open Decimal (Fits)

/-- A call with bare arguments as it is written. -/
def bareCall (name : String) (args : List String) : String :=
  name ++ String.join (args.map (":" ++ ·))

theorem toList_bareCall (name : String) (args : List String) :
    (bareCall name args).toList = name.toList ++ args.flatMap fun arg => ':' :: arg.toList := by
  simp [bareCall, List.flatMap_map]

/-- Past an exact arity only a declared kind is left. -/
theorem FunctionShape.kindAt_of_exact_le {shape : FunctionShape} {n i : Nat}
    (harity : shape.arity = .exact n) (hi : n ≤ i) : shape.kindAt i = shape.kinds[i]? := by
  have hlabels : shape.trailingLabels = false := by
    cases h : shape.trailingLabels with
    | false => rfl
    | true =>
      have hvariadic := shape.variadic_of_labels h
      rw [harity] at hvariadic
      cases hvariadic
  unfold FunctionShape.kindAt
  cases shape.kinds[i]? with
  | some kind => rfl
  | none => simp [hlabels, harity, Arity.exact, hi]

theorem Table.lookup_eq_none_iff {α : Type} [Named α] {table : Table α} {name : String} :
    table.lookup name = none ↔ name ∉ table.names := by
  refine ⟨Table.not_mem_names_of_lookup, fun h => ?_⟩
  rw [Table.lookup, List.find?_eq_none]
  intro entry hentry hname
  exact h (List.mem_map.2 ⟨entry, hentry, by simpa using hname⟩)

/-! ## The tokens of bare arguments -/

/-- The tokens of bare arguments, the first colon of which stands at `offset`. -/
def argumentTokens : Nat → List String → List Token
  | _, [] => []
  | offset, arg :: args =>
    ⟨.colon, ":", (offset : Nat)⟩ :: ⟨.identifier, arg, (offset + 1 : Nat)⟩ ::
      argumentTokens (offset + 1 + arg.toList.length) args

theorem argumentTokens_append (offset : Nat) (args more : List String) :
    argumentTokens offset (args ++ more) =
      argumentTokens offset args ++
        argumentTokens (offset + (args.flatMap fun arg => ':' :: arg.toList).length) more := by
  induction args generalizing offset with
  | nil => rfl
  | cons arg args ih =>
    have hoffset : offset + ((arg :: args).flatMap fun arg => ':' :: arg.toList).length =
        offset + 1 + arg.toList.length + (args.flatMap fun arg => ':' :: arg.toList).length := by
      rw [List.flatMap_cons, List.length_append, List.length_cons]
      omega
    rw [List.cons_append, argumentTokens, argumentTokens, ih, hoffset]
    rfl

theorem endsWord_arguments (args : List String) :
    EndsWord (args.flatMap fun arg => ':' :: arg.toList) := by
  cases args with
  | nil => exact endsWord_nil
  | cons arg args => exact endsWord_mark rfl _

/-- A word in front of what cannot go on with it is the first token. -/
theorem tiles_word {word : String} {rest : List Char} {offset : Nat} {tokens : List Token}
    (hword : isName word = true) (hend : EndsWord rest)
    (htail : Tiles (offset + word.toList.length) rest tokens) :
    Tiles offset (word.toList ++ rest) (⟨.identifier, word, offset⟩ :: tokens) := by
  have hmax : ∀ c ∈ rest.head?, ¬ TokenKind.identifier.Matches (word.toList ++ [c]) := by
    intro c hc hm
    have hname := hm.2 c (by simp)
    rw [hend c hc] at hname
    cases hname
  have hcons := Tiles.cons (matches_of_isName hword) hmax htail
  rwa [String.ofList_toList] at hcons

theorem tiles_argumentTokens {args : List String} (hargs : ∀ arg ∈ args, isName arg = true)
    (offset : Nat) :
    Tiles offset (args.flatMap fun arg => ':' :: arg.toList) (argumentTokens offset args) := by
  induction args generalizing offset with
  | nil => exact .nil offset
  | cons arg args ih =>
    rw [List.forall_mem_cons] at hargs
    have hcolon : TokenKind.ofChar? ':' = some .colon := rfl
    have hword := tiles_word hargs.1 (endsWord_arguments args)
      (ih hargs.2 (offset + 1 + arg.toList.length))
    exact .cons (ofChar?_eq_some hcolon).1 (fun _ _ => not_matches_append_singleton hcolon) hword

namespace Direct

/-! ## Reading bare arguments -/

/-- `count` arguments of the call of `name` have been read, and a colon would lead to the next one. -/
def CountedTo (t : Tables) (shape : FunctionShape) (name : Token) (count : Nat) (s : State) : Prop :=
  ∃ call : OpenCall, call.shape = shape ∧ call.name = name ∧ call.args.length = count ∧
    (∀ colon : Token, colon.kind = .colon →
      ∃ read, Step t s colon ⟨.argument colon call [], [], read, 0⟩) ∧
    (count ≠ 0 → s.stage = .afterArgument call [])

variable {t : Tables} {shape : FunctionShape} {name : Token} {count : Nat} {s : State}
  {arg line : String} {args : List String}

theorem countedTo_zero (hl : t.registry.lookup name.value = some shape) (read : Nat) :
    CountedTo t shape name 0 ⟨.keyName name, [], read, 0⟩ :=
  ⟨⟨shape, name, []⟩, rfl, rfl, rfl, fun _ hk => ⟨_, .openKey hk hl⟩, fun h => absurd rfl h⟩

theorem countedTo_afterArgument (call : OpenCall) (read : Nat) :
    CountedTo t call.shape call.name call.args.length ⟨.afterArgument call [], [], read, 0⟩ :=
  ⟨call, rfl, rfl, rfl, fun _ hk => ⟨_, .nextArgument hk⟩, fun _ => rfl⟩

/-- A colon and a bare argument are read, unless a key name is asked for and this is none. -/
theorem CountedTo.next (h : CountedTo t shape name count s)
    (harg : shape.kindAt count = some .key → arg ∈ t.catalog.names) (offset : Nat)
    (rest : List String) :
    ∃ s', feed t s (argumentTokens offset (arg :: rest)) =
        feed t s' (argumentTokens (offset + 1 + arg.toList.length) rest) ∧
      CountedTo t shape name (count + 1) s' := by
  obtain ⟨call, rfl, rfl, rfl, hcolon, -⟩ := h
  obtain ⟨read, hopen⟩ := hcolon ⟨.colon, ":", offset⟩ rfl
  rw [argumentTokens, feed_cons hopen]
  have hpushed : ∀ value read', CountedTo t call.shape call.name (call.args.length + 1)
      ⟨.afterArgument (call.push value) [], [], read', 0⟩ := by
    intro value read'
    have hcounted := countedTo_afterArgument (t := t) (call.push value) read'
    simpa [OpenCall.push] using hcounted
  -- only a place for a key name looks into the catalog
  by_cases hkey : call.nextKind = some .key
  · have hfound : t.catalog.lookup arg ≠ none :=
      fun hnone => Table.lookup_eq_none_iff.1 hnone (harg hkey)
    obtain ⟨entry, hentry⟩ := Option.ne_none_iff_exists'.1 hfound
    exact ⟨_, feed_cons (.key rfl hkey hentry) _, hpushed (.key entry) (read + 1)⟩
  · exact ⟨_, feed_cons (.literal rfl hkey) _, hpushed (.literal arg) (read + 1)⟩

/-- A bare argument that should be a key name, and is none, is refused. -/
theorem CountedTo.refused (h : CountedTo t shape name count s)
    (hkey : shape.kindAt count = some .key) (harg : arg ∉ t.catalog.names) (offset : Nat)
    (rest : List String) :
    ∃ r, feed t s (argumentTokens offset (arg :: rest)) = .error r ∧
      r.diagnostic = t.nameDiagnostic arg (offset + 1 : Nat) := by
  obtain ⟨call, rfl, rfl, rfl, hcolon, -⟩ := h
  obtain ⟨read, hopen⟩ := hcolon ⟨.colon, ":", offset⟩ rfl
  rw [argumentTokens, feed_cons hopen]
  exact ⟨_, feed_cons_refused (.unknownArgument rfl hkey (Table.lookup_eq_none_iff.2 harg)) _, rfl⟩

/-- Bare arguments are read and counted as long as those that should be key names are. -/
theorem CountedTo.run (h : CountedTo t shape name count s)
    (hargs : ∀ i arg, args[i]? = some arg → shape.kindAt (count + i) = some .key →
      arg ∈ t.catalog.names) (offset : Nat) :
    ∃ s', feed t s (argumentTokens offset args) = .ok s' ∧
      CountedTo t shape name (count + args.length) s' := by
  -- the kinds are asked for by place, so the count moves along with the arguments
  induction args generalizing s count offset with
  | nil => exact ⟨s, rfl, h⟩
  | cons arg args ih =>
    obtain ⟨s', hfeed, hnext⟩ := h.next (hargs 0 arg rfl) offset args
    have hrest : ∀ i arg, args[i]? = some arg → shape.kindAt (count + 1 + i) = some .key →
        arg ∈ t.catalog.names := by
      intro i other hi hkey
      refine hargs (i + 1) other (by simpa using hi) ?_
      rwa [Nat.add_assoc, Nat.add_comm 1 i] at hkey
    obtain ⟨s'', hrun, hcounted⟩ := ih hnext hrest (offset + 1 + arg.toList.length)
    refine ⟨s'', hfeed.trans hrun, ?_⟩
    rwa [List.length_cons, Nat.add_comm args.length 1, ← Nat.add_assoc]

/-- At the end of the call its arguments are counted. -/
theorem CountedTo.finish (h : CountedTo t shape name count s) (hcount : count ≠ 0)
    (ha : shape.arity.accepts count = false) (stop : Int) :
    ∃ r, finish t s stop = .error r ∧
      r.diagnostic = .arityMismatch shape.name shape.arity count name.offset := by
  obtain ⟨call, rfl, rfl, rfl, -, hstage⟩ := h
  rcases s with ⟨stage, keys, read, depth⟩
  cases hstage hcount
  exact ⟨_, (Shortfall.arity ha).finish_eq, rfl⟩

/-! ## A line with one call -/

theorem lineTokens_bareCall {function : String} (hname : isName function = true)
    (hargs : ∀ arg ∈ args, isName arg = true) (hline : Text.trimmed line = bareCall function args) :
    lineTokens line = .ok (⟨.identifier, function, Text.indent line.toList⟩ ::
      argumentTokens (Text.indent line.toList + function.toList.length) args) := by
  have htrim : Text.trim line.toList =
      function.toList ++ args.flatMap fun arg => ':' :: arg.toList := by
    rw [← toList_bareCall, ← hline, Text.trimmed, String.toList_ofList]
  have htiles := tiles_word hname (endsWord_arguments args)
    (tiles_argumentTokens hargs (Text.indent line.toList + function.toList.length))
  unfold lineTokens
  rw [htrim, scan_eq_ok_iff.2 htiles]
  rfl

section

variable (hshape : t.registry.lookup shape.name = some shape) (hname : isName shape.name = true)
  (hargs : ∀ arg ∈ args, isName arg = true) (hline : Text.trimmed line = bareCall shape.name args)

include hshape hname hargs hline

/-- If the name of the function is followed by what is rejected, so is the line. -/
theorem parse_of_countedTo {d : Diagnostic}
    (h : ∀ s, CountedTo t shape ⟨.identifier, shape.name, Text.indent line.toList⟩ 0 s →
      ∃ r, (feed t s (argumentTokens (Text.indent line.toList + shape.name.toList.length) args) >>=
        fun s' => finish t s' (lineEnd line)) = .error r ∧ r.diagnostic = d) :
    parse t line = .error d := by
  obtain ⟨r, hr, rfl⟩ := h _ (countedTo_zero hshape 1)
  rw [parse_of_lineTokens (lineTokens_bareCall hname hargs hline)]
  unfold readAll
  rw [feed_cons (.keyName (Or.inl rfl) rfl)]
  exact congrArg (Except.mapError Rejection.diagnostic) hr

/-- If all names that are looked up are there, a wrong number of arguments is reported. -/
theorem parse_eq_arityMismatch (hne : args ≠ [])
    (ha : shape.arity.accepts args.length = false)
    (hkeys : ∀ i arg, args[i]? = some arg → shape.kindAt i = some .key → arg ∈ t.catalog.names) :
    parse t line =
      .error (.arityMismatch shape.name shape.arity args.length (Text.indent line.toList)) := by
  refine parse_of_countedTo hshape hname hargs hline fun s hs => ?_
  have hfound : ∀ i arg, args[i]? = some arg → shape.kindAt (0 + i) = some .key →
      arg ∈ t.catalog.names := by
    intro i arg hi hkey
    rw [Nat.zero_add] at hkey
    exact hkeys i arg hi hkey
  obtain ⟨s', hfeed, hcounted⟩ := hs.run hfound _
  rw [Nat.zero_add] at hcounted
  rw [hfeed]
  exact hcounted.finish (mt List.length_eq_zero_iff.1 hne) ha _

/-- The first name that is looked up and is not there is reported. -/
theorem parse_eq_unknownName {i : Nat} (hi : args[i]? = some arg)
    (hkey : shape.kindAt i = some .key) (harg : arg ∉ t.catalog.names)
    (hkeys : ∀ j other, j < i → args[j]? = some other → shape.kindAt j = some .key →
      other ∈ t.catalog.names) :
    parse t line = .error (t.nameDiagnostic arg
      (Text.indent line.toList + (bareCall shape.name (args.take i)).length + 1 : Nat)) := by
  refine parse_of_countedTo hshape hname hargs hline fun s hs => ?_
  obtain ⟨hlt, rfl⟩ := List.getElem?_eq_some_iff.1 hi
  have hsplit : args = args.take i ++ args[i] :: args.drop (i + 1) := by
    rw [← List.drop_eq_getElem_cons hlt, List.take_append_drop]
  have hbefore : ∀ j other, (args.take i)[j]? = some other → shape.kindAt (0 + j) = some .key →
      other ∈ t.catalog.names := by
    intro j other hj hother
    rw [List.getElem?_take] at hj
    split at hj
    · rename_i hji
      rw [Nat.zero_add] at hother
      exact hkeys j other hji hj hother
    · cases hj
  obtain ⟨s', hfeed, hcounted⟩ := hs.run hbefore (Text.indent line.toList + shape.name.toList.length)
  rw [Nat.zero_add, List.length_take_of_le (Nat.le_of_lt hlt)] at hcounted
  obtain ⟨r, hr, hdiagnostic⟩ := hcounted.refused hkey harg
    (Text.indent line.toList + (bareCall shape.name (args.take i)).length) (args.drop (i + 1))
  have hoffset : Text.indent line.toList + (bareCall shape.name (args.take i)).length =
      Text.indent line.toList + shape.name.toList.length +
        ((args.take i).flatMap fun arg => ':' :: arg.toList).length := by
    rw [← String.length_toList, toList_bareCall, List.length_append, Nat.add_assoc]
  -- what comes after the missing name is never looked at
  have hrun : feed t s (argumentTokens (Text.indent line.toList + shape.name.toList.length) args) =
      .error r := by
    rw [hsplit, argumentTokens_append, ← hoffset]
    unfold feed at hfeed hr ⊢
    rw [List.foldlM_append, hfeed]
    exact hr
  rw [hrun]
  exact ⟨r, rfl, hdiagnostic⟩

end

/-- At place `i`, past the arity `n`, stands an argument for which the function declares that it is a
key name, and the catalog does not have it. -/
def MissingPastArity (t : Tables) (shape : FunctionShape) (n : Nat) (args : List String) (i : Nat)
    (arg : String) : Prop :=
  n ≤ i ∧ args[i]? = some arg ∧ shape.kinds[i]? = some .key ∧ arg ∉ t.catalog.names

section

variable {n i : Nat}

theorem mem_names_of_not_missing (harity : shape.arity = .exact n)
    (hkeys : ∀ i arg, i < n → args[i]? = some arg → shape.kindAt i = some .key →
      arg ∈ t.catalog.names)
    (hthere : ¬ MissingPastArity t shape n args i arg) (hi : args[i]? = some arg)
    (hkey : shape.kindAt i = some .key) : arg ∈ t.catalog.names := by
  rcases Nat.lt_or_ge i n with hin | hin
  · exact hkeys i arg hin hi hkey
  · by_contra hmem
    rw [FunctionShape.kindAt_of_exact_le harity hin] at hkey
    exact hthere ⟨hin, hi, hkey, hmem⟩

/-- Of the arguments that are missing past the arity, the first one is reported. -/
theorem parse_of_missingPastArity (hshape : t.registry.lookup shape.name = some shape)
    (hname : isName shape.name = true) (harity : shape.arity = .exact n)
    (hargs : ∀ arg ∈ args, isName arg = true)
    (hkeys : ∀ i arg, i < n → args[i]? = some arg → shape.kindAt i = some .key →
      arg ∈ t.catalog.names)
    (hline : Text.trimmed line = bareCall shape.name args)
    (hmissing : MissingPastArity t shape n args i arg)
    (hfirst : ∀ j < i, ∀ other, ¬ MissingPastArity t shape n args j other) :
    parse t line = .error (t.nameDiagnostic arg
      (Text.indent line.toList + (bareCall shape.name (args.take i)).length + 1 : Nat)) := by
  obtain ⟨hin, hi, hkey, hmem⟩ := hmissing
  rw [← FunctionShape.kindAt_of_exact_le harity hin] at hkey
  refine parse_eq_unknownName hshape hname hargs hline hi hkey hmem ?_
  intro j other hji
  exact mem_names_of_not_missing harity hkeys (hfirst j hji other)

/-- If any argument past the arity is missing, one is reported. -/
theorem exists_reported_of_missing (hshape : t.registry.lookup shape.name = some shape)
    (hname : isName shape.name = true) (harity : shape.arity = .exact n)
    (hargs : ∀ arg ∈ args, isName arg = true)
    (hkeys : ∀ i arg, i < n → args[i]? = some arg → shape.kindAt i = some .key →
      arg ∈ t.catalog.names)
    (hline : Text.trimmed line = bareCall shape.name args)
    (hmissing : MissingPastArity t shape n args i arg) :
    ∃ name offset, parse t line = .error (t.nameDiagnostic name offset) := by
  have hplaces : ∃ i arg, MissingPastArity t shape n args i arg := ⟨i, arg, hmissing⟩
  classical
  obtain ⟨first, hfirst⟩ := Nat.find_spec hplaces
  exact ⟨_, _, parse_of_missingPastArity hshape hname harity hargs hkeys hline hfirst
    fun j hj other hother => Nat.find_min hplaces hj ⟨other, hother⟩⟩

/-! ## What a caller gets -/

theorem length_argumentTokens (offset : Nat) (args : List String) :
    (argumentTokens offset args).length = 2 * args.length := by
  induction args generalizing offset with
  | nil => rfl
  | cons arg args ih =>
    rw [argumentTokens, List.length_cons, List.length_cons, ih, List.length_cons]
    omega

theorem outcome_eq_unknownName {name : String} {offset : Int}
    (h : parse t line = .error (t.nameDiagnostic name offset)) (hlength : Fits line.length) :
    outcome t line = .error (.rejected (t.nameDiagnostic name offset)) := by
  have hoffset := fits_offset_of_parse_eq_error h hlength rfl
  unfold outcome
  rw [h]
  refine congrArg Except.error (Halt.ofDiagnostic_of_fits ?_)
  simpa [Tables.nameDiagnostic, Diagnostic.numbers] using hoffset

/-- The number of arguments is reported if the arity can be written. -/
theorem outcome_of_arityMismatch {function : String} {expected : Arity} {got : Nat} {offset : Int}
    (h : parse t line = .error (.arityMismatch function expected got offset))
    (hlength : Fits line.length) (hgot : got ≤ line.length) :
    outcome t line = .error (if Fits expected.minimum then
      .rejected (.arityMismatch function expected got offset) else .longNumber) := by
  have hoffset := fits_offset_of_parse_eq_error h hlength rfl
  have hcount : Fits got := hlength.of_le hgot
  unfold outcome
  rw [h]
  refine congrArg Except.error ?_
  split
  · rename_i hexpected
    refine Halt.ofDiagnostic_of_fits ?_
    simpa [Diagnostic.numbers] using ⟨hexpected, hcount, hoffset⟩
  · rename_i hlong
    exact Halt.ofDiagnostic_of_not_fits List.mem_cons_self hlong

/-- **A wrong number of arguments is reported as such, if the names that are looked up are there.** A
line that calls a function of exact arity `n` with another number of bare arguments, of which those
within the arity that should be key names are, is reported for its number of arguments just when no
argument past the arity is missing in the catalog at a place for which the function declares a key name,
and `n` can be written; if `n` cannot be written, the failure is one over a long number. Otherwise the
first argument that is missing there is reported in place of the number. -/
theorem outcome_bareCall_of_wrong_count (hshape : t.registry.lookup shape.name = some shape)
    (hname : isName shape.name = true) (harity : shape.arity = .exact n)
    (hargs : ∀ arg ∈ args, isName arg = true) (hne : args ≠ []) (hcount : args.length ≠ n)
    (hkeys : ∀ i arg, i < n → args[i]? = some arg → shape.kindAt i = some .key →
      arg ∈ t.catalog.names)
    (hline : Text.trimmed line = bareCall shape.name args) (hlength : Fits line.length) :
    (outcome t line = .error (.rejected
        (.arityMismatch shape.name (.exact n) args.length (Text.indent line.toList))) ↔
      Fits n ∧ ∀ i arg, ¬ MissingPastArity t shape n args i arg) ∧
    (outcome t line = .error .longNumber ↔
      ¬ Fits n ∧ ∀ i arg, ¬ MissingPastArity t shape n args i arg) ∧
    ∀ i arg, MissingPastArity t shape n args i arg →
      (∀ j < i, ∀ other, ¬ MissingPastArity t shape n args j other) →
      outcome t line = .error (.rejected (t.nameDiagnostic arg
        (Text.indent line.toList + (bareCall shape.name (args.take i)).length + 1 : Nat))) := by
  have hmissing : ∀ i arg, MissingPastArity t shape n args i arg →
      ∃ name offset, outcome t line = .error (.rejected (t.nameDiagnostic name offset)) := by
    intro i arg h
    obtain ⟨name, offset, hparse⟩ :=
      exists_reported_of_missing hshape hname harity hargs hkeys hline h
    exact ⟨name, offset, outcome_eq_unknownName hparse hlength⟩
  have hcounted : (∀ i arg, ¬ MissingPastArity t shape n args i arg) →
      outcome t line = .error (if Fits n then .rejected (.arityMismatch shape.name (.exact n)
        args.length (Text.indent line.toList)) else .longNumber) := by
    intro hall
    have ha : shape.arity.accepts args.length = false := by
      simp [harity, Arity.accepts, Arity.exact, hcount]
    have hparse := parse_eq_arityMismatch hshape hname hargs hline hne ha
      fun i arg => mem_names_of_not_missing harity hkeys (hall i arg)
    have htokens := length_lineTokens_le (lineTokens_bareCall hname hargs hline)
    rw [List.length_cons, length_argumentTokens] at htokens
    rw [harity] at hparse
    exact outcome_of_arityMismatch hparse hlength (by omega)
  have hiff : ∀ halt, (∀ name offset, halt ≠ .rejected (t.nameDiagnostic name offset)) →
      (outcome t line = .error halt ↔
        (if Fits n then .rejected (.arityMismatch shape.name (.exact n) args.length
          (Text.indent line.toList)) else .longNumber) = halt ∧
        ∀ i arg, ¬ MissingPastArity t shape n args i arg) := by
    intro halt hhalt
    constructor
    · intro h
      have hall : ∀ i arg, ¬ MissingPastArity t shape n args i arg := by
        intro i arg hi
        obtain ⟨name, offset, hother⟩ := hmissing i arg hi
        exact hhalt name offset (Except.error.inj (h.symm.trans hother))
      exact ⟨Except.error.inj ((hcounted hall).symm.trans h), hall⟩
    · rintro ⟨rfl, hall⟩
      exact hcounted hall
  refine ⟨?_, ?_, ?_⟩
  · rw [hiff _ (by rintro name offset ⟨⟩)]
    by_cases hfits : Fits n <;> simp [hfits]
  · rw [hiff _ (by rintro name offset ⟨⟩)]
    by_cases hfits : Fits n <;> simp [hfits]
  · intro i arg hi hfirst
    have hparse :=
      parse_of_missingPastArity hshape hname harity hargs hkeys hline hi hfirst
    exact outcome_eq_unknownName hparse hlength

end

/-- The function takes one argument and declares two kinds; three arguments are counted, as the second
one is a key name. -/
theorem outcome_bareCall_of_wrong_count_three :
    ∃ (t : Tables) (shape : FunctionShape), shape.arity = .exact 1 ∧
      shape.kinds = [.literal, .key] ∧ t.registry.lookup "f" = some shape ∧ Fits (1 : Nat) ∧
      outcome t " f:x:ip6ttl:y" = .error (.rejected (.arityMismatch "f" (.exact 1) 3 1)) := by
  let shape : FunctionShape := { name := "f", arity := .exact 1, kinds := [.literal, .key] }
  let t : Tables := ⟨.builtin, ⟨Registry.builtinShapes ++ [shape], by decide⟩⟩
  have hargs : ∀ arg ∈ ["x", "ip6ttl", "y"], isName arg = true := by decide
  have hkeys : ∀ i arg, i < 1 → ["x", "ip6ttl", "y"][i]? = some arg →
      shape.kindAt i = some .key → arg ∈ t.catalog.names := by
    intro i arg hi _ hkey
    rw [Nat.lt_one_iff.1 hi] at hkey
    cases hkey
  have hall : ∀ i arg, ¬ MissingPastArity t shape 1 ["x", "ip6ttl", "y"] i arg := by
    rintro (_ | _ | i) arg ⟨hi, harg, hkind, hmem⟩
    · cases hi
    · cases harg
      exact hmem (by decide)
    · cases hkind
  have hline : Text.trimmed " f:x:ip6ttl:y" = bareCall shape.name ["x", "ip6ttl", "y"] := by decide
  have hlength : Fits " f:x:ip6ttl:y".length := by decide
  have hone : Fits (1 : Nat) := by decide
  exact ⟨t, shape, rfl, rfl, rfl, hone, (outcome_bareCall_of_wrong_count rfl (by decide) rfl hargs
    (by decide) (by decide) hkeys hline hlength).1.2 ⟨hone, hall⟩⟩

/-- The same function with two arguments: they are not counted, as the second one is looked up first and
is missing. -/
theorem argument_past_arity_looked_up :
    ∃ (t : Tables) (shape : FunctionShape) (suggestions : List String), shape.arity = .exact 1 ∧
      shape.kinds = [.literal, .key] ∧ t.registry.lookup "f" = some shape ∧
      outcome t "f:x:y" = .error (.rejected (.unknownName "y" 4 suggestions)) ∧
      outcome t "f:x:y" ≠ .error (.rejected (.arityMismatch "f" (.exact 1) 2 0)) := by
  let shape : FunctionShape := { name := "f", arity := .exact 1, kinds := [.literal, .key] }
  let t : Tables := ⟨.builtin, ⟨Registry.builtinShapes ++ [shape], by decide⟩⟩
  have hargs : ∀ arg ∈ ["x", "y"], isName arg = true := by decide
  have hline : Text.trimmed "f:x:y" = bareCall shape.name ["x", "y"] := by decide
  have hfirst : ∀ j other, j < 1 → ["x", "y"][j]? = some other → shape.kindAt j = some .key →
      other ∈ t.catalog.names := by
    intro j other hj _ hkey
    rw [Nat.lt_one_iff.1 hj] at hkey
    cases hkey
  have hplace : Text.indent "f:x:y".toList + (bareCall shape.name (["x", "y"].take 1)).length + 1 =
      4 := by
    decide
  have hparse : parse t "f:x:y" = .error (t.nameDiagnostic "y" 4) := by
    have hunknown := parse_eq_unknownName (t := t) (i := 1) rfl (by decide) hargs hline rfl rfl
      (by decide) hfirst
    rwa [hplace] at hunknown
  have h := outcome_eq_unknownName hparse (by decide)
  refine ⟨t, shape, _, rfl, rfl, rfl, h, ?_⟩
  rw [h]
  rintro ⟨⟩

end Direct

end TrafficKey
