import TrafficKey.Invocation
import TrafficKey.Proofs.ArgumentCounts
import TrafficKey.Proofs.Margins
import TrafficKey.Proofs.Sessions

/-!
# A single command is what the parser says

A program that is started with a `parse-key` command prints what the parser makes of the words behind it,
joined by spaces. On its way to the parser the text is put behind the name of the command, cut into a first
word and the rest, written with another name, trimmed, and cut again behind the name. All this takes off
nothing but blanks around the text, so only offsets can differ, and they count from the first character
that is not blank. All this is so for every host, with its files and its YAML library.

A text that is wrong in a way that cannot be worded stops the program, as it stops the parser.
-/

namespace TrafficKey

open Decimal (Fits)

/-! ## Words of a command line -/

namespace CommandLine

/-- The word does not begin with a dash. -/
def Dashless (word : String) : Prop :=
  word.toList.head? ≠ some '-'

instance : DecidablePred Dashless := fun word =>
  inferInstanceAs (Decidable (word.toList.head? ≠ some '-'))

variable {specs : List OptionSpec} {word name value : String} {words rest : List String}

theorem Dashless.readWord_eq (h : Dashless word) : readWord specs word = .ok .argument := by
  unfold readWord
  split
  next rest heq =>
    refine absurd ?_ h
    rw [heq]
    rfl
  next => rfl

theorem Dashless.ne_separator (h : Dashless word) : word ≠ "--" := by
  rintro rfl
  exact h rfl

theorem readWords_cons {kind : Word} (hne : word ≠ "--") (h : readWord specs word = .ok kind) :
    readWords specs (word :: words) = (readWords specs words).map ((word, kind) :: ·) := by
  rw [readWords, if_neg hne, h]
  rfl

theorem readWords_of_dashless (h : ∀ word ∈ words, Dashless word) :
    readWords specs words = .ok (words.map (·, .argument)) := by
  induction words with
  | nil => rfl
  | cons word words ih =>
    rw [List.forall_mem_cons] at h
    rw [readWords_cons h.1.ne_separator h.1.readWord_eq, ih h.2]
    rfl

variable {α : Type} {set : α → OptionSpec → Option String → Except Fault (Option α)}
  {keep : α → List String → α} {unknown : List String} {options options' : α}

/-- Words without dashes are kept. -/
theorem request_of_dashless (h : ∀ word ∈ words, Dashless word) :
    request set keep [] options (items specs true words) = .run (keep options words) := by
  have hitems : items specs true words = [.rest words] := by
    unfold items
    rw [readWords_of_dashless h]
    cases words with
    | nil => rfl
    | cons word words => simp [itemsOf, Function.comp_def]
  rw [hitems]
  rfl

/-- The name of an option and a value without a dash set the option, whatever follows. -/
theorem request_option {spec : OptionSpec} {long remainder : Bool} (hne : name ≠ "--")
    (hname : readWord specs name = .ok (.option spec long none)) (htakes : spec.takesValue = true)
    (hvalue : Dashless value) (hset : set options spec (some value) = .ok (some options')) :
    request set keep unknown options (items specs remainder (name :: value :: rest)) =
      request set keep unknown options' (items specs remainder rest) := by
  unfold items
  rw [readWords_cons hne hname, readWords_cons hvalue.ne_separator hvalue.readWord_eq]
  cases readWords specs rest with
  | error fault => rfl
  | ok kinds =>
    have hoption : readOption specs spec long none = .ok ⟨[], some spec⟩ := by
      simp [readOption, htakes]
    simp only [Except.map, itemsOf, hoption, List.nil_append, request, hset]

end CommandLine

namespace Invocation

open CommandLine

/-- What a command line asks for, after words that have set some options. -/
def requestFrom (o : Options) (words : List String) : Request Options :=
  CommandLine.request setOption (fun o words => { o with command := words }) [] o
    (items specs true words)

/-- A command line that names extension files and a format, and asks to parse the words. -/
def parseKeyLine (names : List String) (format : Format) (words : List String) : List String :=
  names.flatMap (fun name => ["-e", name]) ++ ["-f", format.label, "parse-key"] ++ words

variable {names words : List String}

theorem requestFrom_extension {name : String} (h : Dashless name) (o : Options)
    (rest : List String) :
    requestFrom o ("-e" :: name :: rest) =
      requestFrom { o with extensions := o.extensions ++ [name] } rest :=
  request_option (by decide) (by rfl) rfl h rfl

theorem requestFrom_extensions (h : ∀ name ∈ names, Dashless name) (o : Options)
    (rest : List String) :
    requestFrom o (names.flatMap (fun name => ["-e", name]) ++ rest) =
      requestFrom { o with extensions := o.extensions ++ names } rest := by
  induction names generalizing o with
  | nil => rw [List.append_nil]; rfl
  | cons name names ih =>
    rw [List.forall_mem_cons] at h
    change requestFrom o ("-e" :: name :: (names.flatMap _ ++ rest)) = _
    rw [requestFrom_extension h.1, ih h.2, List.append_assoc]
    rfl

theorem requestFrom_format (format : Format) (o : Options) (rest : List String) :
    requestFrom o ("-f" :: format.label :: rest) = requestFrom { o with format } rest := by
  have hlabel : Dashless format.label := by cases format <;> decide
  have hset : setOption o formatOption (some format.label) = .ok (some { o with format }) := by
    cases format <;> rfl
  exact request_option (by decide) (by rfl) rfl hlabel hset

theorem request_parseKeyLine (hnames : ∀ name ∈ names, Dashless name)
    (hwords : ∀ word ∈ words, Dashless word) (format : Format) :
    request (parseKeyLine names format words) =
      .run { extensions := names, format, command := "parse-key" :: words } := by
  have hcommand : ∀ word ∈ "parse-key" :: words, Dashless word :=
    List.forall_mem_cons.2 ⟨by decide, hwords⟩
  unfold parseKeyLine
  rw [List.append_assoc]
  change requestFrom {} _ = _
  rw [requestFrom_extensions hnames, List.cons_append, List.cons_append, requestFrom_format]
  exact request_of_dashless hcommand

end Invocation

/-! ## Trimming -/

namespace Text

theorem trim_trimRight (cs : List Char) : trim (trimRight cs) = trim cs := by
  obtain ⟨right, hcs, hright⟩ := trimRight_append_blank cs
  have htrim := trim_around (List.forall_mem_nil _) hright (trimRight cs)
  rw [List.nil_append, ← hcs] at htrim
  exact htrim.symm

theorem trim_trimLeft (cs : List Char) : trim (trimLeft cs) = trim cs := by
  unfold trim trimLeft
  rw [List.dropWhile_idempotent]

theorem trim_trim (cs : List Char) : trim (trim cs) = trim cs := by
  obtain ⟨left, right, hcs, -, hleft, hright⟩ := exists_blanks cs
  have htrim := trim_around hleft hright (trim cs)
  rw [← hcs] at htrim
  exact htrim.symm

theorem trim_cons_of_isBlank {c : Char} (h : isBlank c = true) (cs : List Char) :
    trim (c :: cs) = trim cs := by
  unfold trim trimLeft
  rw [List.dropWhile_cons_of_pos h]

/-- A trimmed line has no indentation. -/
theorem indent_trim (cs : List Char) : indent (trim cs) = 0 := by
  by_cases hblank : trim cs = []
  · rw [hblank]
    rfl
  · obtain ⟨left, right, hcs, hlength, hleft, -⟩ := exists_blanks cs
    have hindent : indent cs = left.length + indent (trim cs) := by
      conv_lhs => rw [hcs]
      exact indent_around hleft (by rwa [trim_trim])
    omega

theorem trimLeft_append_of_not_isBlank {word : List Char} (hne : word ≠ [])
    (h : ∀ c ∈ word, isBlank c = false) (rest : List Char) :
    trimLeft (word ++ rest) = word ++ rest := by
  obtain ⟨c, more, rfl⟩ := List.exists_cons_of_ne_nil hne
  exact List.dropWhile_cons_of_neg (by simp [h c List.mem_cons_self])

/-- Trimming what begins with a word that has no blanks leaves the word. -/
theorem trim_append_of_not_isBlank {word : List Char} (hne : word ≠ [])
    (h : ∀ c ∈ word, isBlank c = false) (rest : List Char) :
    trim (word ++ rest) = word ++ trimRight rest := by
  have hword : word.reverse.dropWhile isBlank = word.reverse := by
    rw [List.dropWhile_eq_self_iff]
    intro hpos
    exact Bool.eq_false_iff.1 (h _ (List.mem_reverse.1 (List.getElem_mem hpos)))
  unfold trim
  rw [trimLeft_append_of_not_isBlank hne h]
  unfold trimRight
  rw [List.reverse_append, List.dropWhile_append]
  split
  next hnothing =>
    -- the rest is blank, and trimming stops at the word
    rw [List.isEmpty_iff.1 hnothing, hword, List.reverse_reverse]
    simp
  next => rw [List.reverse_append, List.reverse_reverse]

/-- A line whose first word is followed by a blank, or by nothing. -/
theorem firstWord?_append {line : String} {word rest : List Char} (hne : word ≠ [])
    (hline : line.toList = word ++ rest) (hword : ∀ c ∈ word, isBlank c = false)
    (hrest : ∀ c ∈ rest.head?, isBlank c = true) :
    firstWord? line =
      some (String.ofList word, String.ofList (trimLeft rest)) := by
  have hkept : ∀ c ∈ word, (!isBlank c) = true := by
    intro c hc
    rw [hword c hc]
    rfl
  have hstop : rest.takeWhile (!isBlank ·) = [] ∧ rest.dropWhile (!isBlank ·) = rest := by
    cases rest with
    | nil => exact ⟨rfl, rfl⟩
    | cons c more =>
      have hc := hrest c rfl
      simp [hc]
  unfold firstWord?
  rw [hline, trimLeft_append_of_not_isBlank hne hword]
  split
  next hnil => exact absurd (List.append_eq_nil_iff.1 hnil).1 hne
  next =>
    rw [List.takeWhile_append_of_pos hkept, List.dropWhile_append_of_pos hkept, hstop.1, hstop.2,
      List.append_nil]

end Text

/-! ## From the line to the parser -/

namespace Command

theorem canonicalLine_parseKey {line : String} {rest : List Char}
    (hline : line.toList = "parse-key".toList ++ rest)
    (hrest : ∀ c ∈ rest.head?, Text.isBlank c = true) :
    canonicalLine line = "parse_key " ++ String.ofList (Text.trimLeft rest) := by
  have hfirst := Text.firstWord?_append (by decide) hline (by simp; decide) hrest
  rw [String.ofList_toList] at hfirst
  unfold canonicalLine
  simp only [hfirst]

theorem ofTrimmed_parseKey {rest : List Char} (hrest : ∀ c ∈ rest.head?, isNameChar c = false) :
    ofTrimmed ("parse_key".toList ++ rest) = .parseKey (String.ofList (Text.trim rest)) := by
  have hname : ∀ c ∈ "parse_key".toList, isNameChar c = true := by simp; decide
  obtain ⟨htake, hdrop⟩ := takeWhile_dropWhile_run hname hrest
  have hwords : ofTrimmed ("parse_key".toList ++ rest) = ofWords ("parse_key".toList ++ rest) := rfl
  rw [hwords]
  unfold ofWords
  simp only [htake, hdrop, String.ofList_toList]

/-- The text behind the name of the command is trimmed. -/
theorem ofLine_parseKey {line : String} {rest : List Char}
    (hline : line.toList = "parse-key".toList ++ rest)
    (hrest : ∀ c ∈ rest.head?, Text.isBlank c = true) :
    ofLine line = .parseKey (String.ofList (Text.trim rest)) := by
  have hcanonical : (canonicalLine line).toList =
      "parse_key".toList ++ ' ' :: Text.trimLeft rest := by
    rw [canonicalLine_parseKey hline hrest, String.toList_append,
      String.toList_ofList (l := Text.trimLeft rest)]
    rfl
  have hhead : ∀ c ∈ (Text.trimRight (' ' :: Text.trimLeft rest)).head?, isNameChar c = false := by
    -- if trimming leaves anything, it leaves the space in front
    intro c hc
    obtain ⟨right, hright, -⟩ := Text.trimRight_append_blank (' ' :: Text.trimLeft rest)
    cases htrim : Text.trimRight (' ' :: Text.trimLeft rest) with
    | nil =>
      rw [htrim] at hc
      cases hc
    | cons d more =>
      rw [htrim] at hc hright
      cases hc
      rw [← (List.cons.inj hright).1]
      decide
  unfold ofLine
  rw [hcanonical, Text.trim_append_of_not_isBlank (by decide) (by simp; decide),
    ofTrimmed_parseKey hhead, Text.trim_trimRight, Text.trim_cons_of_isBlank (by decide),
    Text.trim_trimLeft]

/-- Words behind the name of the command reach the parser as a trimmed text. -/
theorem ofLine_join_parseKey (words : List String) :
    ofLine (Text.join " " ("parse-key" :: words)) =
      .parseKey (Text.trimmed (Text.join " " words)) := by
  cases words with
  | nil => rfl
  | cons word words =>
    have hline : (Text.join " " ("parse-key" :: word :: words)).toList =
        "parse-key".toList ++ ' ' :: (Text.join " " (word :: words)).toList := by
      unfold Text.join
      rw [String.intercalate_cons_cons, String.toList_append, String.toList_append,
        List.append_assoc]
      rfl
    rw [ofLine_parseKey hline (by simp; decide), Text.trim_cons_of_isBlank (by decide)]
    rfl

end Command

/-- A moved diagnostic says the same. -/
theorem Diagnostic.detail?_shift (n : Int) (d : Diagnostic) : (d.shift n).detail? = d.detail? := by
  cases d <;> rfl

theorem Diagnostic.kind_shift (n : Int) (d : Diagnostic) : (d.shift n).kind = d.kind := by
  cases d <;> rfl

theorem Diagnostic.offset?_shift (n : Int) (d : Diagnostic) :
    (d.shift n).offset? = d.offset?.map (n + ·) := by
  cases d <;> rfl

/-- What a report has of its diagnostic. -/
theorem Diagnostic.of_report? {d : Diagnostic} {r : Report} (h : d.report? = some r) :
    r.kind = d.kind ∧ d.detail? = some r.detail ∧ r.offset = d.offset? := by
  unfold report? at h
  cases hdetail : d.detail? with
  | none => simp [hdetail] at h
  | some detail =>
    rw [hdetail] at h
    change Report.make? d.kind d.offset? detail = some r at h
    unfold Report.make? at h
    split at h
    · rename_i hoffset
      cases h
      exact ⟨rfl, rfl, hoffset.symm⟩
    · rename_i n hoffset
      cases hwrite : Decimal.write? n with
      | none => simp [hwrite] at h
      | some column =>
        rw [hwrite] at h
        cases h
        exact ⟨rfl, rfl, rfl⟩

/-- A line is read as its trimmed text, with every offset moved by the indentation. -/
theorem Direct.parse_eq_parse_trimmed (t : Tables) (text : String) :
    parse t text =
      (parse t (Text.trimmed text)).mapError (Diagnostic.shift (Text.indent text.toList)) := by
  rw [parse_eq_readTrimmed t text, parse_eq_readTrimmed t (Text.trimmed text), Text.trimmed,
    String.toList_ofList, Text.trim_trim, Text.indent_trim]
  cases readTrimmed t (Text.trim text.toList) with
  | ok d => rfl
  | error d =>
    have hshift := d.shift_add (Text.indent text.toList) 0
    rw [Int.add_zero] at hshift
    exact congrArg Except.error hshift

/-- A text and its trimmed text are both rejected, or neither is, and the rejections differ in their
offsets only. -/
theorem Direct.report?_of_parse_trimmed {t : Tables} {text : String} {e : Diagnostic}
    (hlength : Fits text.length) (h : parse t (Text.trimmed text) = .error e) :
    (e.shift (Text.indent text.toList)).report?.isSome = e.report?.isSome := by
  have hparse : parse t text = .error (e.shift (Text.indent text.toList)) := by
    rw [parse_eq_parse_trimmed, h]
    rfl
  have htrimmed : Fits (Text.trimmed text).length := by
    refine hlength.of_le ?_
    have htrim := Text.length_trim_le text.toList
    rwa [String.length_toList, ← String.length_ofList] at htrim
  rw [Diagnostic.isSome_report?_of_offset fun n => fits_offset_of_parse_eq_error hparse hlength,
    Diagnostic.isSome_report?_of_offset fun n => fits_offset_of_parse_eq_error h htrimmed,
    Diagnostic.detail?_shift]

/-! ## What is printed -/

/-- Files are applied as the values that they hold. -/
theorem Extension.exists_applyAll_of_loadAll {host : Host} {t t' : Tables} {paths : List Path}
    (h : loadAll host t paths = .ok t') : ∃ values, applyAll host.room t values = .ok t' := by
  induction paths generalizing t with
  | nil =>
    cases h
    exact ⟨[], rfl⟩
  | cons path paths ih =>
    obtain ⟨extended, hload, hrest⟩ := bind_eq_ok.1 h
    obtain ⟨data, -, happly⟩ := bind_eq_ok.1 hload
    obtain ⟨values, hvalues⟩ := ih hrest
    exact ⟨data :: values, bind_eq_ok.2 ⟨extended, mapError_eq_ok_iff.1 happly, hvalues⟩⟩

namespace Session

variable {s : Session} {text : String}

theorem parseKey_of_ok {format : Format} {d : Definition} (hformat : s.format = format.label)
    (ht : s.tables.TakeLabels) (h : Direct.parse s.tables text = .ok d) :
    s.parseKey text = ({ s with lastOk := true },
      { out := d.render s.dump format ++ "\n", err := warningLines d.warnings }) := by
  have hlabel : Format.ofLabel? s.format = some format := by
    rw [hformat]
    cases format <;> rfl
  simp only [parseKey, h, showDefinition, hlabel, Direct.warnings_of_parse ht h]

theorem parseKey_of_report {e : Diagnostic} {r : Report} (hquiet : s.verbose = false)
    (h : Direct.parse s.tables text = .error e) (hreport : e.report? = some r) :
    s.parseKey text = ({ s with lastOk := false }, { err := r.line ++ "\n" }) := by
  simp only [parseKey, h, showDiagnostic, hreport, hquiet]
  simp

theorem parseKey_of_no_report {e : Diagnostic} (h : Direct.parse s.tables text = .error e)
    (hreport : e.report? = none) : s.parseKey text = (s, { fault := some .longNumber }) := by
  simp only [parseKey, h, showDiagnostic, hreport]

end Session

namespace Invocation

open CommandLine

section

variable {host : Host} {t : Tables} {o : Options} {words : List String} {input : String}

theorem runWith_parseKey {after : Session} {response : Response}
    (hcommand : o.command = "parse-key" :: words) (hquiet : o.verbose = false)
    (h : (session host t o).parseKey (Text.trimmed (Text.join " " words)) = (after, response)) :
    runWith host t o input =
      { exit := exitOf after.lastOk response.fault, out := response.out, err := response.err } := by
  have hrespond : (session host t o).respond (Text.join " " o.command) = (after, response) := by
    rw [hcommand, ← h]
    unfold Session.respond
    rw [Command.ofLine_join_parseKey]
    rfl
  have hnote : startNote t o = "" := by
    unfold startNote
    rw [hquiet]
    rfl
  have hsome : o.command.isEmpty = false := by rw [hcommand]; rfl
  simp only [runWith, hrespond, hnote, hsome, String.empty_append, Bool.false_eq_true, if_false]

theorem runWith_of_parse_ok {d : Definition} (hcommand : o.command = "parse-key" :: words)
    (hquiet : o.verbose = false) (ht : t.TakeLabels)
    (h : Direct.parse t (Text.trimmed (Text.join " " words)) = .ok d) :
    runWith host t o input =
      { exit := .ok 0, out := d.render host.yaml.dump o.format ++ "\n",
        err := Session.warningLines d.warnings } :=
  runWith_parseKey hcommand hquiet (Session.parseKey_of_ok rfl ht h)

theorem runWith_of_report {e : Diagnostic} {r : Report} (hcommand : o.command = "parse-key" :: words)
    (hquiet : o.verbose = false)
    (h : Direct.parse t (Text.trimmed (Text.join " " words)) = .error e)
    (hreport : e.report? = some r) :
    runWith host t o input = { exit := .ok 1, err := r.line ++ "\n" } :=
  runWith_parseKey hcommand hquiet (Session.parseKey_of_report hquiet h hreport)

theorem runWith_of_no_report {e : Diagnostic} (hcommand : o.command = "parse-key" :: words)
    (hquiet : o.verbose = false)
    (h : Direct.parse t (Text.trimmed (Text.join " " words)) = .error e) (hreport : e.report? = none) :
    runWith host t o input = { exit := .error (.line .longNumber) } :=
  runWith_parseKey hcommand hquiet (Session.parseKey_of_no_report h hreport)

/-- The outcome says what a caller of the parser gets for a text. -/
structure Reflects (dump : Data → String) (t : Tables) (format : Format) (text : String)
    (outcome : Outcome) : Prop where
  accepted_iff : outcome.exit = .ok 0 ↔ ∃ d, Direct.outcome t text = .ok d
  rejected_iff : outcome.exit = .ok 1 ↔ ∃ e, Direct.outcome t text = .error (.rejected e)
  /-- the program is stopped by what stops the parser -/
  stopped_iff : outcome.exit = .error (.line .longNumber) ↔
    Direct.outcome t text = .error .longNumber
  /-- a definition is printed in the format, with its warnings on the error channel -/
  shown : ∀ d, Direct.outcome t text = .ok d →
    outcome.out = d.render dump format ++ "\n" ∧ outcome.err = Session.warningLines d.warnings
  /-- nothing is printed but the line of the error of the trimmed text: it has the kind and the detail
  of the error of the text, and its offset counts from the first character that is not blank -/
  refused : ∀ e, Direct.outcome t text = .error (.rejected e) →
    outcome.out = "" ∧ ∃ e' r r', Direct.outcome t (Text.trimmed text) = .error (.rejected e') ∧
      e.report? = some r ∧ e'.report? = some r' ∧ outcome.err = r'.line ++ "\n" ∧
      r.kind = r'.kind ∧ r.detail = r'.detail ∧
      r.offset = r'.offset.map (((Text.indent text.toList : Nat) : Int) + ·)

theorem reflects_runWith (hcommand : o.command = "parse-key" :: words) (hquiet : o.verbose = false)
    (ht : t.TakeLabels) (hlength : Fits (Text.join " " words).length) :
    Reflects host.yaml.dump t o.format (Text.join " " words) (runWith host t o input) := by
  have hparse := Direct.parse_eq_parse_trimmed t (Text.join " " words)
  cases htrimmed : Direct.parse t (Text.trimmed (Text.join " " words)) with
  | ok d =>
    have hok : Direct.outcome t (Text.join " " words) = .ok d := by
      unfold Direct.outcome
      rw [hparse, htrimmed]
      rfl
    rw [runWith_of_parse_ok hcommand hquiet ht htrimmed]
    refine ⟨?_, ?_, ?_, ?_, ?_⟩
    · simp [hok]
    · simp [hok]
    · simp [hok]
    · intro other hother
      cases hok.symm.trans hother
      exact ⟨rfl, rfl⟩
    · intro e he
      cases hok.symm.trans he
  | error e' =>
    let e := e'.shift (Text.indent (Text.join " " words).toList)
    have herror : Direct.parse t (Text.join " " words) = .error e := by rw [hparse, htrimmed]; rfl
    have hsome := Direct.report?_of_parse_trimmed hlength htrimmed
    cases hreport : e'.report? with
    | none =>
      have hlong : Direct.outcome t (Text.join " " words) = .error .longNumber := by
        unfold Direct.outcome
        rw [herror]
        refine congrArg Except.error (if_neg ?_)
        rw [hsome, hreport]
        exact Bool.false_ne_true
      rw [runWith_of_no_report hcommand hquiet htrimmed hreport]
      refine ⟨?_, ?_, ?_, ?_, ?_⟩
      · simp [hlong]
      · simp [hlong]
      · simp [hlong]
      · intro d hd
        cases hlong.symm.trans hd
      · intro e he
        cases hlong.symm.trans he
    | some r' =>
      rw [hreport] at hsome
      obtain ⟨r, hr⟩ := Option.isSome_iff_exists.1 hsome
      have hrejected : Direct.outcome t (Text.join " " words) = .error (.rejected e) :=
        Direct.outcome_eq_rejected_iff.2 ⟨herror, hsome⟩
      rw [runWith_of_report hcommand hquiet htrimmed hreport]
      refine ⟨?_, ?_, ?_, ?_, ?_⟩
      · simp [hrejected]
      · simp [hrejected]
      · simp [hrejected]
      · intro d hd
        cases hrejected.symm.trans hd
      · intro other hother
        cases hrejected.symm.trans hother
        have htext : Direct.outcome t (Text.trimmed (Text.join " " words)) = .error (.rejected e') :=
          Direct.outcome_eq_rejected_iff.2 ⟨htrimmed, by rw [hreport]; rfl⟩
        obtain ⟨hkind, hdetail, hoffset⟩ := Diagnostic.of_report? hr
        obtain ⟨hkind', hdetail', hoffset'⟩ := Diagnostic.of_report? hreport
        rw [Diagnostic.detail?_shift, hdetail'] at hdetail
        refine ⟨rfl, e', r, r', htext, hr, hreport, rfl, ?_, (Option.some.inj hdetail).symm, ?_⟩
        · rw [hkind, hkind', Diagnostic.kind_shift]
        · rw [hoffset, hoffset', Diagnostic.offset?_shift]

/-- The parser gives a definition, a rejection or no wording, so the exit code is not 2. -/
theorem Reflects.exit_ne {dump : Data → String} {format : Format} {text : String} {outcome : Outcome}
    (h : Reflects dump t format text outcome) : outcome.exit ≠ .ok 2 := by
  cases houtcome : Direct.outcome t text with
  | ok d => simp [h.accepted_iff.2 ⟨d, houtcome⟩]
  | error halt =>
    obtain ⟨d, hparse, hhalt⟩ := mapError_eq_error_iff.1 houtcome
    rcases Direct.Halt.ofDiagnostic_eq_or d with hrejected | hlong
    · rw [← hhalt, hrejected] at houtcome
      simp [h.rejected_iff.2 ⟨d, houtcome⟩]
    · rw [← hhalt, hlong] at houtcome
      simp [h.stopped_iff.2 houtcome]

/-- If all arities can be written, the exit code is 0 or 1. -/
theorem Reflects.exit_eq {dump : Data → String} {format : Format} {text : String} {outcome : Outcome}
    (h : Reflects dump t format text outcome) (ht : t.AritiesFit) (hlength : Fits text.length) :
    outcome.exit = .ok 0 ∨ outcome.exit = .ok 1 := by
  cases hparse : Direct.parse t text with
  | ok d => exact Or.inl (h.accepted_iff.2 ⟨d, mapError_eq_ok_iff.2 hparse⟩)
  | error d => exact Or.inr (h.rejected_iff.2 ⟨d, Direct.outcome_of_parse_error ht hlength hparse⟩)

theorem reflects_runOptions (hcommand : o.command = "parse-key" :: words)
    (hquiet : o.verbose = false) (hlength : Fits (Text.join " " words).length)
    (h : Extension.loadAll host .builtin (o.extensions.map Path.ofText) = .ok t) :
    Reflects host.yaml.dump t o.format (Text.join " " words) (runOptions host o input) := by
  have hrun : runOptions host o input = runWith host t o input := by
    simp [runOptions, extensionNotes, h, hquiet]
  obtain ⟨values, hvalues⟩ := Extension.exists_applyAll_of_loadAll h
  rw [hrun]
  exact reflects_runWith hcommand hquiet (Extension.takeLabels_of_applyAll hvalues) hlength

theorem runOptions_of_loadAll_error {fault : LoadFault} (hquiet : o.verbose = false)
    (h : Extension.loadAll host .builtin (o.extensions.map Path.ofText) = .error fault)
    (hreported : fault.isReported = true) :
    runOptions host o input = { exit := .ok 2, err := "Error: " ++ fault.message ++ "\n" } := by
  simp [runOptions, extensionNotes, h, hquiet, hreported]

end

theorem run_parseKeyLine {names words : List String} (hnames : ∀ name ∈ names, Dashless name)
    (hwords : ∀ word ∈ words, Dashless word) (host : Host) (format : Format) (input : String) :
    run host (parseKeyLine names format words) input =
      runOptions host { extensions := names, format, command := "parse-key" :: words } input := by
  unfold run
  rw [request_parseKeyLine hnames hwords]

/-- **A single command agrees with the parser.** Take any host, extension files and words that do not begin
with a dash, and any format, such that the files are applied or have a fault that is reported. The exit code
is 2 exactly if there is such a fault, and then the output is empty. Otherwise the outcome reflects what a
caller of the parser gets for the words, joined by spaces, under the extended tables: the exit code is 0 for a
definition, which is printed with its warnings, and 1 for a rejection, whose line is printed. If the arities
of these tables can be written, it is one of the two; a text that is wrong in a way that cannot be worded
stops the program. -/
theorem run_reflects_parse (host : Host) (names words : List String) (format : Format) (input : String)
    (hnames : ∀ name ∈ names, Dashless name) (hwords : ∀ word ∈ words, Dashless word)
    (hlength : Fits (Text.join " " words).length)
    (hload : (∃ t, Extension.loadAll host .builtin (names.map Path.ofText) = .ok t) ∨
      ∃ fault, Extension.loadAll host .builtin (names.map Path.ofText) = .error fault ∧
        fault.isReported = true) :
    let outcome := run host (parseKeyLine names format words) input
    let loaded := Extension.loadAll host .builtin (names.map Path.ofText)
    (outcome.exit = .ok 2 ↔ ∃ fault, loaded = .error fault ∧ fault.isReported = true) ∧
      (∀ fault, loaded = .error fault → outcome.out = "") ∧
      ∀ t, loaded = .ok t → Reflects host.yaml.dump t format (Text.join " " words) outcome ∧
        (t.AritiesFit → outcome.exit = .ok 0 ∨ outcome.exit = .ok 1) := by
  intro outcome loaded
  let o : Options := { extensions := names, format, command := "parse-key" :: words }
  have hrun : outcome = runOptions host o input := run_parseKeyLine hnames hwords host format input
  rcases hload with ⟨t, ht⟩ | ⟨fault, hfault, hreported⟩
  · have hloaded : loaded = .ok t := ht
    have hreflects : Reflects host.yaml.dump t format (Text.join " " words) outcome := by
      rw [hrun]
      exact reflects_runOptions (o := o) rfl rfl hlength ht
    rw [hloaded]
    refine ⟨?_, ?_, ?_⟩
    · simp [hreflects.exit_ne]
    · intro fault hfault
      cases hfault
    · intro other hother
      cases hother
      exact ⟨hreflects, fun harities => hreflects.exit_eq harities hlength⟩
  · have hloaded : loaded = .error fault := hfault
    rw [hrun, hloaded, runOptions_of_loadAll_error rfl hfault hreported]
    refine ⟨⟨fun _ => ⟨fault, rfl, hreported⟩, fun _ => rfl⟩, ?_, ?_⟩
    · intro _ _
      rfl
    · intro t ht
      cases ht

/-- An added name that is given twice, with a blank word on each side; a word that asks for help where it
is a line of its own; and a file that is not there. -/
theorem run_reflects_parse_added_name :
    ∃ (host : Host) (t : Tables) (d : Definition),
      let names := ["a.yaml"]
      let twice := ["", "vlan,vlan", "\t"]
      let odd := ["", "?vlan"]
      let accepted := run host (parseKeyLine names .tree twice) ""
      let rejected := run host (parseKeyLine names .tree odd) ""
      (∀ name ∈ names, Dashless name) ∧ (∀ word ∈ twice, Dashless word) ∧
        (∀ word ∈ odd, Dashless word) ∧
        Extension.loadAll host .builtin (names.map Path.ofText) = .ok t ∧
        Direct.outcome t (Text.join " " twice) = .ok d ∧ accepted.exit = .ok 0 ∧
        accepted.out = d.render host.yaml.dump .tree ++ "\n" ∧
        accepted.err = "warning: key 1: key 'vlan' repeats key 0\n" ∧
        Direct.outcome t (Text.join " " odd) =
          .error (.rejected (.malformed 1 .token (some "?"))) ∧
        rejected.exit = .ok 1 ∧ rejected.out = "" ∧
        rejected.err = "error: KeySyntaxError at offset 0: " ++
          "expected identifier or one of ':', ',', '[', ']', found '?'\n" ∧
        (run { host with read := fun _ => .error .missing } (parseKeyLine names .tree odd) "").exit =
          .ok 2 := by
  let host : Host := { read := fun _ => .ok "key_names: [vlan]\n" }
  let t : Tables := ⟨⟨Catalog.builtinNames ++ [⟨"vlan", ""⟩], by decide⟩, .builtin⟩
  let d : Definition := .snoc [.name ⟨"vlan", ""⟩] (.name ⟨"vlan", ""⟩)
  have hentries : ((Extension.loadAll host .builtin [.ofText "a.yaml"]).toOption.any fun t' =>
      decide (t'.catalog.entries = t.catalog.entries ∧
        t'.registry.entries = t.registry.entries)) = true := by decide +kernel
  have hloaded : Extension.loadAll host .builtin [.ofText "a.yaml"] = .ok t := by
    generalize Extension.loadAll host .builtin [.ofText "a.yaml"] = loaded at hentries ⊢
    cases loaded with
    | error fault => cases hentries
    | ok t' =>
      obtain ⟨hc, hr⟩ := of_decide_eq_true hentries
      rw [Tables.eq_of_entries hc hr]
  have hnames : ∀ name ∈ ["a.yaml"], Dashless name := by decide
  have htwice : ∀ word ∈ ["", "vlan,vlan", "\t"], Dashless word := by decide
  have hodd : ∀ word ∈ ["", "?vlan"], Dashless word := by decide
  have hok : Direct.outcome t (Text.join " " ["", "vlan,vlan", "\t"]) = .ok d := by cbv
  have herror : Direct.outcome t (Text.join " " ["", "?vlan"]) =
      .error (.rejected (.malformed 1 .token (some "?"))) := by cbv
  have hwarning : Session.warningLines d.warnings =
      "warning: key 1: key 'vlan' repeats key 0\n" := by cbv
  obtain ⟨-, -, haccepted⟩ := run_reflects_parse host ["a.yaml"] ["", "vlan,vlan", "\t"]
    .tree "" hnames htwice (by decide) (Or.inl ⟨t, hloaded⟩)
  obtain ⟨-, -, hrejected⟩ := run_reflects_parse host ["a.yaml"] ["", "?vlan"] .tree ""
    hnames hodd (by decide) (Or.inl ⟨t, hloaded⟩)
  obtain ⟨hmissing, -, -⟩ := run_reflects_parse { host with read := fun _ => .error .missing }
    ["a.yaml"] ["", "?vlan"] .tree "" hnames hodd (by decide) (Or.inr ⟨_, rfl, rfl⟩)
  obtain ⟨haccepted, -⟩ := haccepted t hloaded
  obtain ⟨hrejected, -⟩ := hrejected t hloaded
  have hshown := haccepted.shown d hok
  obtain ⟨hout, e', r, r', he', -, hr', herr, -, -, -⟩ := hrejected.refused _ herror
  have htrimmed : Direct.outcome t (Text.trimmed (Text.join " " ["", "?vlan"])) =
      .error (.rejected (.malformed 0 .token (some "?"))) := by cbv
  have hline : (Diagnostic.malformed 0 .token (some "?")).report?.map (·.line ++ "\n") =
      some ("error: KeySyntaxError at offset 0: " ++
        "expected identifier or one of ':', ',', '[', ']', found '?'\n") := by cbv
  cases htrimmed.symm.trans he'
  rw [hr'] at hline
  exact ⟨host, t, d, hnames, htwice, hodd, hloaded, hok, haccepted.accepted_iff.2 ⟨d, hok⟩,
    hshown.1, hshown.2.trans hwarning, herror, hrejected.rejected_iff.2 ⟨_, herror⟩, hout,
    herr.trans (Option.some.inj hline), hmissing.2 ⟨_, rfl, rfl⟩⟩

end Invocation

/-! ## An arity that cannot be written -/

/-- The declaration of the function whose arity is too long. -/
def longEntry : Data :=
  .record [("name", .str "f"), ("arity", .record [("exact", .int longCount)]),
    ("args", .list [.str "literal"])]

theorem Extension.readFunction_longEntry (room : EntryField → Nat) :
    readFunction room 0 longEntry = .ok longShape := by
  have hone : ¬ (Arity.exact longCount).minimum < 1 := by
    have hlt := one_lt_longCount
    change ¬ (longCount : Int) < 1
    omega
  have harity : readArity room (.declared "f") (.record [("exact", .int longCount)]) =
      .ok (.exact longCount) := by
    exact if_neg hone
  change (readArity room (.declared "f") (.record [("exact", .int longCount)]) >>= _) = _
  rw [harity]
  change (FunctionShape.declare "f" (.exact longCount) [.literal] false .plain "").mapError _ = _
  unfold FunctionShape.declare
  rw [dif_neg (by simp), dif_neg hone, dif_neg (by simp)]
  rfl

theorem Extension.apply_longEntry (room : EntryField → Nat) :
    ∃ t, apply room .builtin (.record [("functions", .list [longEntry])]) = .ok t ∧
      t.registry.lookup "f" = some longShape := by
  have hread : readFunctions room (.list [longEntry]) = .ok [longShape] := by
    change (readFunction room 0 longEntry >>= _) = _
    rw [readFunction_longEntry]
    rfl
  let t : Tables := ⟨.builtin, ⟨Registry.builtinShapes ++ [longShape], by decide⟩⟩
  refine ⟨t, ?_, rfl⟩
  let entries : List (Data × Data) := [(.str "functions", .list [longEntry])]
  have hfunctions : addFunctions room entries Registry.builtin = .ok t.registry := by
    change (readFunctions room (.list [longEntry]) >>= _) = _
    rw [hread]
    rfl
  change ((addFunctions room entries Registry.builtin).mapError ExtensionFault.config >>= _) = _
  rw [hfunctions]
  rfl

theorem Direct.outcome_longCall {t : Tables} (h : t.registry.lookup "f" = some longShape) :
    outcome t "f:x" = .error .longNumber := by
  have hline : Text.trimmed "f:x" = bareCall longShape.name ["x"] := by decide
  have hkeys : ∀ i arg, ["x"][i]? = some arg → longShape.kindAt i = some .key →
      arg ∈ t.catalog.names := by
    rintro (_ | i) arg hi hkey
    · cases hkey
    · cases hi
  have hparse := parse_eq_arityMismatch h (by decide) (by decide) hline (by decide)
    longShape_accepts_one hkeys
  have houtcome := outcome_of_arityMismatch hparse (by decide) (by decide)
  rwa [if_neg not_fits_longShape] at houtcome

/-- An extension file may declare a function with an arity that is too long to be written. A command that
calls it with one argument has no exit code. -/
theorem Invocation.run_long_arity :
    let digits := String.ofList (Nat.toDigits 16 longCount)
    let file := "functions:\n- name: f\n  arity:\n    exact: 0x" ++ digits ++ "\n  args: [literal]\n"
    let value := Data.record [("functions", .list [longEntry])]
    let host : Host :=
      { read := fun _ => .ok file, yaml := { Yaml.library with load := fun _ => .ok value } }
    (∃ t, Extension.loadAll host .builtin [.ofText "a.yaml"] = .ok t ∧
      Direct.outcome t "f:x" = .error .longNumber) ∧
    (run host (parseKeyLine ["a.yaml"] .debug ["f:x"]) "").exit = .error (.line .longNumber) := by
  intro digits file value host
  obtain ⟨t, happly, hlookup⟩ := Extension.apply_longEntry host.room
  have hloaded : Extension.loadAll host .builtin [.ofText "a.yaml"] = .ok t := by
    change ((Extension.apply host.room .builtin value).mapError _ >>= pure) = _
    rw [happly]
    rfl
  have hlong := Direct.outcome_longCall hlookup
  refine ⟨⟨t, hloaded, hlong⟩, ?_⟩
  have hfits : Fits (Text.join " " ["f:x"]).length := by decide
  rw [run_parseKeyLine (by decide) (by decide)]
  exact (reflects_runOptions rfl rfl hfits hloaded).stopped_iff.2 hlong

end TrafficKey
