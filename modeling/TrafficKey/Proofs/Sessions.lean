import TrafficKey.Proofs.Accessors
import TrafficKey.Proofs.Wording
import TrafficKey.Session

/-!
# Lines of a session do not interfere

A line can change one thing only, whether the last command succeeded, and no answer looks at it. So the
answer to a line is the same after any lines before it, and what a script prints is what its lines print
one by one, each after a prompt, up to the first line that ends the session.

An answer has no fault if there is a format of that name, all functions that build group calls take only
labels after their first argument, as all functions of the built-in and the extended tables do, and the
arities of all functions can be written.
-/

namespace TrafficKey

open Decimal (Fits)

/-! ## Functions that build group calls -/

/-- If the function builds group calls, all arguments after the first are labels. -/
def FunctionShape.TakesLabels (shape : FunctionShape) : Prop :=
  shape.call = .group → ∀ count : Nat, shape.arity.accepts count = true →
    ∀ i, 0 < i → i < count → shape.kindAt i = some .literal

/-- All functions that build group calls take labels. -/
def Tables.TakeLabels (t : Tables) : Prop :=
  ∀ shape ∈ t.registry.entries, shape.TakesLabels

theorem FunctionShape.TakesLabels.labelled {shape : FunctionShape} (h : shape.TakesLabels)
    {callee : Callee} {args : List Argument} (hbuilds : shape.Builds callee args) :
    Call.Labelled ⟨callee, args⟩ := by
  intro hkind
  have hgroup : shape.call = .group := hbuilds.kind.symm.trans hkind
  cases args with
  | nil => exact ⟨[], rfl⟩
  | cons first rest =>
    apply hbuilds.exists_labels
    intro i hi
    exact h hgroup _ hbuilds.count (i + 1) (Nat.succ_pos i) (Nat.succ_lt_succ hi)

namespace Direct

variable {t : Tables} {text : String} {d : Definition}

/-- The warnings of a definition that was read with such tables exist. -/
theorem warnings_of_parse (ht : t.TakeLabels) (h : parse t text = .ok d) :
    d.toNode.warnings = .ok d.warnings := by
  rcases bind_eq_ok.1 h with ⟨tokens, _, hread⟩
  rcases bind_eq_ok.1 (mapError_eq_ok_iff.1 hread) with ⟨s, hfeed, hfinish⟩
  have hkeys := (Finish.of_finish_eq hfinish).wellFormed (feed_wellFormed hfeed)
  have hbuilt : ∀ shape ∈ t.registry.entries, ∀ callee args,
      shape.Builds callee args → Call.Labelled ⟨callee, args⟩ :=
    fun shape hshape _ _ hbuilds => (ht shape hshape).labelled hbuilds
  apply Definition.warnings_of_labelled
  intro key hkey
  exact (hkeys key hkey).1.forall_calls hbuilt

end Direct

/-- Extension data declares no function that builds group calls, and the built-in one takes labels. -/
theorem Extension.takeLabels_of_applyAll {room : EntryField → Nat} {values : List Data} {t : Tables}
    (h : applyAll room .builtin values = .ok t) : t.TakeLabels := by
  obtain ⟨-, -, hregistry⟩ := applyAll_eq_ok_iff_valid.1 h
  intro shape hshape
  rw [hregistry] at hshape
  rcases List.mem_append.1 hshape with hbuiltin | hadded
  · intro hgroup count _ i hi _
    obtain ⟨i, rfl⟩ := Nat.exists_eq_succ_of_ne_zero (Nat.ne_of_gt hi)
    change shape ∈ Registry.builtinShapes at hbuiltin
    unfold Registry.builtinShapes at hbuiltin
    simp only [List.mem_cons, List.not_mem_nil, or_false] at hbuiltin
    rcases hbuiltin with rfl | rfl | rfl | rfl | rfl
    -- only the first of them builds group calls, and has trailing labels
    · rfl
    all_goals cases hgroup
  · obtain ⟨data, -, hadded⟩ := List.mem_flatMap.1 hadded
    have hplain := (of_mem_shapesOf hadded).2
    intro hgroup
    rw [hplain] at hgroup
    cases hgroup

theorem Format.exists_ofLabel? {word : String} (h : word ∈ Format.all.map Format.label) :
    ∃ format, Format.ofLabel? word = some format := by
  obtain ⟨format, hmem, hlabel⟩ := List.mem_map.1 h
  rw [← Option.isSome_iff_exists]
  unfold Format.ofLabel?
  rw [List.find?_isSome]
  exact ⟨format, hmem, by simpa using hlabel⟩

/-! ## The commands that end a session -/

/-- The name that a line starts with, after its blanks. -/
def Command.leadingName (line : String) : String :=
  String.ofList ((Text.trim line.toList).takeWhile isNameChar)

theorem Text.takeWhile_isNameChar_trimRight (cs : List Char) :
    (trimRight cs).takeWhile isNameChar = cs.takeWhile isNameChar := by
  obtain ⟨right, hcs, hblank⟩ := trimRight_append_blank cs
  -- what is trimmed off is blank, so no name goes on into it
  have hright : right.takeWhile isNameChar = [] := by
    cases right with
    | nil => rfl
    | cons c more =>
      have hc := not_isNameChar_of_isBlank (hblank c List.mem_cons_self)
      rw [List.takeWhile_cons_of_neg (by simpa using hc)]
  conv_rhs => rw [hcs]
  rw [List.takeWhile_append, hright, List.append_nil]
  split_ifs with hall
  · exact List.takeWhile_prefix _ |>.eq_of_length hall
  · rfl

namespace Command

theorem leadingName_of_trimLeft {line : String} {name rest : List Char}
    (h : Text.trimLeft line.toList = name ++ rest) (hname : ∀ c ∈ name, isNameChar c = true)
    (hrest : ∀ c ∈ rest.head?, isNameChar c = false) : leadingName line = String.ofList name := by
  unfold leadingName Text.trim
  rw [Text.takeWhile_isNameChar_trimRight, h, (takeWhile_dropWhile_run hname hrest).1]

theorem firstWord_eq {line word rest : String} (h : Text.firstWord? line = some (word, rest)) :
    (Text.trimLeft line.toList).takeWhile (!Text.isBlank ·) = word.toList ∧
      Text.trimLeft ((Text.trimLeft line.toList).dropWhile (!Text.isBlank ·)) = rest.toList := by
  unfold Text.firstWord? at h
  split at h
  case h_1 => cases h
  case h_2 =>
    cases h
    exact ⟨String.toList_ofList.symm, String.toList_ofList.symm⟩

/-- Writing the first word `parse-key` as `parse_key` makes no line end the session, or go on. -/
theorem leadingName_canonicalLine (line : String) :
    leadingName (canonicalLine line) = leadingName line ∨
      leadingName (canonicalLine line) = "parse_key" ∧ leadingName line = "parse" := by
  unfold canonicalLine
  split
  case h_2 => exact Or.inl rfl
  case h_1 rest hfirst =>
    -- an underscore belongs to a name and a dash ends it, so the names differ
    right
    constructor
    · have hline : Text.trimLeft ("parse_key " ++ rest).toList =
          "parse_key".toList ++ ' ' :: rest.toList := by
        rw [String.toList_append]
        rfl
      exact leadingName_of_trimLeft hline (by simp; decide) (by simp; decide)
    · have hword := (firstWord_eq hfirst).1
      have hline : Text.trimLeft line.toList =
          "parse".toList ++ ('-' :: "key".toList ++
            (Text.trimLeft line.toList).dropWhile (!Text.isBlank ·)) := by
        conv_lhs => rw [← List.takeWhile_append_dropWhile (p := (!Text.isBlank ·))
          (l := Text.trimLeft line.toList), hword]
        rfl
      exact leadingName_of_trimLeft hline (by simp; decide) (by simp; decide)

theorem ofTrimmed_ends_iff (cs : List Char) :
    (ofTrimmed cs = .leave ∨ ofTrimmed cs = .endOfInput) ↔
      String.ofList (cs.takeWhile isNameChar) ∈ ["quit", "exit", "EOF"] := by
  unfold ofTrimmed
  split
  case h_1 => decide
  case h_2 cs =>
    rw [List.takeWhile_cons_of_neg (by decide)]
    simp
  case h_3 cs _ _ =>
    unfold ofWords
    split <;> simp_all

/-! ### The text to be parsed -/

/-- An underscore is no longer than a dash, and what stands behind the first word only loses blanks. -/
theorem length_canonicalLine_le (line : String) : (canonicalLine line).length ≤ line.length + 1 := by
  unfold canonicalLine
  split
  case h_2 => exact Nat.le_succ _
  case h_1 rest hfirst =>
    obtain ⟨hword, hrest⟩ := firstWord_eq hfirst
    have hleft := (List.dropWhile_sublist Text.isBlank (l := line.toList)).length_le
    have hright := (List.dropWhile_sublist Text.isBlank
      (l := (Text.trimLeft line.toList).dropWhile (!Text.isBlank ·))).length_le
    have hsplit := congrArg List.length (List.takeWhile_append_dropWhile (p := (!Text.isBlank ·))
      (l := Text.trimLeft line.toList))
    have hlength : "parse-key".toList.length = 9 := by decide
    have hname : "parse_key ".length = 10 := by decide
    rw [List.length_append, hword, hlength] at hsplit
    rw [String.length_append, ← String.length_toList (s := rest), ← hrest, hname]
    rw [String.length_toList] at hleft
    unfold Text.trimLeft at *
    omega

theorem length_of_ofTrimmed {cs : List Char} {text : String} (h : ofTrimmed cs = .parseKey text) :
    text.length + 9 ≤ cs.length := by
  unfold ofTrimmed at h
  split at h
  case h_1 => cases h
  case h_2 => cases h
  case h_3 =>
    unfold ofWords at h
    split at h
    case h_1 hname =>
      cases h
      have hsplit := congrArg List.length (List.takeWhile_append_dropWhile (p := isNameChar) (l := cs))
      have hlength : (cs.takeWhile isNameChar).length = 9 := by
        have htake := congrArg String.toList hname
        rw [String.toList_ofList] at htake
        rw [htake]
        decide
      have htrim := Text.length_trim_le (cs.dropWhile isNameChar)
      rw [List.length_append, hlength] at hsplit
      rw [String.length_ofList]
      omega
    all_goals cases h

/-- The text to be parsed is part of the line. -/
theorem length_of_ofLine {line text : String} (h : ofLine line = .parseKey text) :
    text.length ≤ line.length := by
  have hcommand := length_of_ofTrimmed h
  have htrim := Text.length_trim_le (canonicalLine line).toList
  have hline := length_canonicalLine_le line
  rw [String.length_toList] at htrim
  omega

end Command

namespace Session

/-! ## One line -/

/-- What can come of a line: something is printed, the session ends, a command fails, a definition is
shown with its warnings, or it cannot be shown. -/
inductive Answer (s : Session) : Session × Response → Prop
  | printed (out : String) : Answer s (s, { out })
  | stopped (out : String) : Answer s (s, { out, stop := true })
  | failed (err : String) : Answer s ({ s with lastOk := false }, { err })
  | shown (out err : String) : Answer s ({ s with lastOk := true }, { out, err })
  | faulty (out : String) (fault : LineFault) : Answer s (s, { out, fault := some fault })

theorem showDefinition_answer (s : Session) (d : Definition) : s.Answer (s.showDefinition d) := by
  unfold showDefinition
  split
  · exact .faulty _ _
  · split
    · exact .shown _ _
    · exact .faulty _ _

theorem showDiagnostic_answer (s : Session) (text : String) (d : Diagnostic) :
    s.Answer (s.showDiagnostic text d) := by
  unfold showDiagnostic
  split
  · exact .faulty _ _
  · exact .failed _

theorem respond_answer (s : Session) (line : String) : s.Answer (s.respond line) := by
  unfold respond
  cases Command.ofLine line with
  | blank => exact .printed ""
  | leave => exact .stopped ""
  | endOfInput => exact .stopped "\n"
  | help topic => exact .printed _
  | unknown word => exact .failed _
  | parseKey text =>
    change s.Answer (s.parseKey text)
    unfold parseKey
    split
    · exact s.showDefinition_answer _
    · exact s.showDiagnostic_answer _ _

/-- A line changes nothing but whether the last command succeeded. -/
theorem Answer.fst_eq {s : Session} {result : Session × Response} (h : s.Answer result) :
    ∃ ok, result.1 = { s with lastOk := ok } := by
  cases h with
  | printed | stopped | faulty => exact ⟨s.lastOk, rfl⟩
  | failed => exact ⟨false, rfl⟩
  | shown => exact ⟨true, rfl⟩

/-- No answer depends on whether the last command succeeded. -/
theorem respond_snd (s : Session) (ok : Bool) (line : String) :
    ({ s with lastOk := ok }.respond line).2 = (s.respond line).2 := by
  unfold respond
  cases Command.ofLine line with
  | blank | leave | endOfInput | help topic | unknown word => rfl
  | parseKey text =>
    simp only [execute, parseKey]
    cases Direct.parse s.tables text with
    | error d =>
      simp only [showDiagnostic]
      cases d.report? <;> rfl
    | ok d =>
      -- the format and the warnings are the same in both sessions
      simp only [showDefinition]
      cases Format.ofLabel? s.format with
      | none => rfl
      | some format => cases d.toNode.warnings <;> rfl

theorem fault_of_respond {s : Session} {line : String}
    (hformat : s.format ∈ Format.all.map Format.label) (ht : s.tables.TakeLabels)
    (harities : s.tables.AritiesFit) (hlength : Fits line.length) :
    (s.respond line).2.fault = none := by
  unfold respond
  cases hcommand : Command.ofLine line with
  | blank | leave | endOfInput | help topic | unknown word => rfl
  | parseKey text =>
    simp only [execute, parseKey]
    cases hparse : Direct.parse s.tables text with
    | error d =>
      have htext : Fits text.length := hlength.of_le (Command.length_of_ofLine hcommand)
      have hnumbers := Direct.fits_of_parse harities htext hparse
      obtain ⟨report, hreport⟩ :=
        Option.isSome_iff_exists.1 (Diagnostic.isSome_report?_iff.2 hnumbers)
      simp only [showDiagnostic, hreport]
    | ok d =>
      obtain ⟨format, hlabel⟩ := Format.exists_ofLabel? hformat
      simp only [showDefinition, hlabel, Direct.warnings_of_parse ht hparse]

theorem stop_of_parseKey (s : Session) (text : String) : (s.parseKey text).2.stop = false := by
  unfold parseKey
  split
  · unfold showDefinition
    split
    · rfl
    · split <;> rfl
  · unfold showDiagnostic
    split <;> rfl

/-- A line ends the session if it starts with one of three names. -/
theorem stop_iff (s : Session) (line : String) :
    (s.respond line).2.stop = true ↔ Command.leadingName line ∈ ["quit", "exit", "EOF"] := by
  have hcommand : (s.respond line).2.stop = true ↔
      Command.ofLine line = .leave ∨ Command.ofLine line = .endOfInput := by
    unfold respond
    cases Command.ofLine line with
    | blank | leave | endOfInput | help topic | unknown word => simp [execute]
    | parseKey text => simp [execute, stop_of_parseKey]
  rw [hcommand]
  refine (Command.ofTrimmed_ends_iff _).trans ?_
  change Command.leadingName (Command.canonicalLine line) ∈ _ ↔ _
  rcases Command.leadingName_canonicalLine line with heq | ⟨hcanonical, hname⟩
  · rw [heq]
  · rw [hcanonical, hname]
    decide

/-- The line is rejected: the text that it gives to parse is, or it is no command. -/
def Rejected (s : Session) (line : String) : Prop :=
  (∃ text d, Command.ofLine line = .parseKey text ∧
      Direct.outcome s.tables text = .error (.rejected d)) ∨
    ∃ word, Command.ofLine line = .unknown word

/-- A rejected line only leaves a note, and that it failed. -/
theorem Rejected.respond_eq {s : Session} {line : String} (h : s.Rejected line) :
    ∃ err, s.respond line = ({ s with lastOk := false }, { err }) := by
  unfold respond
  rcases h with ⟨text, d, hcommand, houtcome⟩ | ⟨word, hcommand⟩
  · obtain ⟨hparse, hworded⟩ := Direct.outcome_eq_rejected_iff.1 houtcome
    obtain ⟨report, hreport⟩ := Option.isSome_iff_exists.1 hworded
    rw [hcommand]
    simp only [execute, parseKey, hparse, showDiagnostic, hreport]
    exact ⟨_, rfl⟩
  · rw [hcommand]
    exact ⟨_, rfl⟩

/-! ## Line after line -/

/-- The session after it has answered lines. -/
def after (s : Session) (lines : List String) : Session :=
  lines.foldl (fun s line => (s.respond line).1) s

theorem after_eq (s : Session) (lines : List String) :
    ∃ ok, s.after lines = { s with lastOk := ok } := by
  induction lines using List.reverseRecOn with
  | nil => exact ⟨s.lastOk, rfl⟩
  | append_singleton done line ih =>
    obtain ⟨before, hdone⟩ := ih
    obtain ⟨ok, hline⟩ := ((s.after done).respond_answer line).fst_eq
    refine ⟨ok, ?_⟩
    unfold after at hdone hline ⊢
    rw [List.foldl_append, List.foldl_cons, List.foldl_nil, hline, hdone]

theorem respond_after (s : Session) (lines : List String) (line : String) :
    ((s.after lines).respond line).2 = (s.respond line).2 := by
  obtain ⟨ok, hafter⟩ := s.after_eq lines
  rw [hafter, s.respond_snd]

theorem Rejected.after {s : Session} {line : String} (h : s.Rejected line) (lines : List String) :
    (s.after lines).Rejected line := by
  obtain ⟨ok, hafter⟩ := s.after_eq lines
  rw [hafter]
  exact h

/-- The lines that are answered: those up to and including the first one that ends the session. -/
def linesRead (s : Session) (lines : List String) : List String :=
  lines.take (lines.findIdx (fun line => (s.respond line).2.ends) + 1)

theorem linesRead_cons (s : Session) (line : String) (lines : List String) :
    s.linesRead (line :: lines) =
      if (s.respond line).2.ends then [line] else line :: s.linesRead lines := by
  unfold linesRead
  rw [List.findIdx_cons]
  cases (s.respond line).2.ends with
  | true => rfl
  | false => rfl

theorem linesRead_lastOk (s : Session) (ok : Bool) (lines : List String) :
    { s with lastOk := ok }.linesRead lines = s.linesRead lines := by
  unfold linesRead
  simp only [respond_snd]

/-- The answers to lines, each of them given in the same state. -/
def responses (s : Session) (lines : List String) : List Response :=
  lines.map fun line => (s.respond line).2

theorem responses_lastOk (s : Session) (ok : Bool) (lines : List String) :
    { s with lastOk := ok }.responses lines = s.responses lines := by
  unfold responses
  simp only [respond_snd]

/-- A loop answers the lines up to the first one that ends the session, where the end of the input acts
as a last line. -/
theorem loop_eq (s : Session) (t : Transcript) (lines : List String) :
    s.loop t lines =
      (s.after (s.linesRead (lines ++ ["EOF"])),
        (s.responses (s.linesRead (lines ++ ["EOF"]))).foldl Transcript.add t) := by
  induction lines generalizing s t with
  | nil =>
    have hread : s.linesRead ["EOF"] = ["EOF"] := by
      rw [linesRead_cons]
      split <;> rfl
    rw [List.nil_append, hread]
    rfl
  | cons line lines ih =>
    rw [List.cons_append, linesRead_cons, loop]
    cases hends : (s.respond line).2.ends with
    | true => simp [hends, after, responses]
    | false =>
      -- the rest is answered from the state that the line leaves, with the same answers
      obtain ⟨ok, hafter⟩ := (s.respond_answer line).fst_eq
      have hrest := ih (s.respond line).1 (t.add (s.respond line).2)
      rw [hafter, linesRead_lastOk, responses_lastOk, ← hafter] at hrest
      simp only [hends]
      exact hrest

/-- A transcript keeps all that is printed, and the fault of the last answer. -/
theorem foldl_add (rs : List Response) (out : String) :
    rs.foldl Transcript.add { out } =
      { out := out ++ String.join (rs.map fun r => prompt ++ r.out)
        err := String.join (rs.map Response.err)
        fault := rs.getLast?.bind Response.fault } := by
  induction rs using List.reverseRecOn with
  | nil => simp
  | append_singleton done r ih =>
    rw [List.foldl_append, List.foldl_cons, List.foldl_nil, ih]
    simp [Transcript.add, String.join_cons, String.join_append, String.append_assoc]

/-- **Lines of a session do not interfere.** For all tables, formats and writers of YAML, the answer to a
line is the same after any lines before it; the line stops the session exactly if the name it starts with
is `quit`, `exit` or `EOF`, and if it is rejected, it is marked as failed and does not end the session. If
the format exists, the functions that build group calls take labels, and the arities and the length of the
line can be written, the line has no fault. A script prints, after the introduction, what its lines print
one by one, each after a prompt, up to and including the first one that stops the session or has a fault;
the end of the script acts as a last line `EOF`. -/
theorem lines_do_not_interfere (s : Session) (history : List String) (line script : String) :
    let response := (s.respond line).2
    let lines := s.linesRead (scriptLines script ++ ["EOF"])
    ((s.after history).respond line).2 = response ∧
      (response.stop = true ↔ Command.leadingName line ∈ ["quit", "exit", "EOF"]) ∧
      (s.Rejected line → ((s.after history).respond line).1.lastOk = false ∧
        response.out = "" ∧ response.ends = false) ∧
      (s.format ∈ Format.all.map Format.label → s.tables.TakeLabels → s.tables.AritiesFit →
        Fits line.length → response.fault = none) ∧
      s.run script = (s.after lines,
        { out := intro ++ "\n" ++
            String.join ((s.responses lines).map fun r => prompt ++ r.out)
          err := String.join ((s.responses lines).map Response.err)
          fault := (s.responses lines).getLast?.bind Response.fault }) := by
  intro response lines
  refine ⟨s.respond_after history line, s.stop_iff line, ?_, ?_, ?_⟩
  · intro hrejected
    obtain ⟨err, hrespond⟩ := hrejected.respond_eq
    obtain ⟨note, hlater⟩ := (hrejected.after history).respond_eq
    have hresponse : response = { err } := congrArg Prod.snd hrespond
    rw [hlater, hresponse]
    exact ⟨rfl, rfl, rfl⟩
  · exact fault_of_respond
  · unfold run
    rw [loop_eq, foldl_add]

/-- A rejected line, an empty line, and a line that stops the session before the last one is read. -/
theorem lines_do_not_interfere_rejected_line :
    let s : Session := { tables := .builtin, format := "tree" }
    let line := "parse-key ip6ttl,"
    let note := "error: KeySyntaxError at offset 6: expected key after ','\n"
    s.format ∈ Format.all.map Format.label ∧ s.tables.TakeLabels ∧ s.tables.AritiesFit ∧
      Fits line.length ∧ s.Rejected line ∧
      ((s.after [line, "?", "ip6ttl"]).respond line).2 = { err := note } ∧
      ((s.after [line, "?", "ip6ttl"]).respond line).1.lastOk = false ∧
      (s.respond line).2.ends = false ∧ (s.respond line).2.fault = none ∧
      (s.run "parse-key ip6ttl,\n\nquit now\nparse-key ip6ttl\n").2 =
        { out := intro ++ "\n" ++ prompt ++ prompt ++ prompt, err := note } := by
  intro s line note
  let script := "parse-key ip6ttl,\n\nquit now\nparse-key ip6ttl\n"
  obtain ⟨hcommand, hparse, hline, hblank, hquit, hscript⟩ :
      Command.ofLine line = .parseKey "ip6ttl," ∧
      Direct.outcome s.tables "ip6ttl," = .error (.rejected (.malformed 6 .keyAfterComma none)) ∧
      (s.respond line).2 = { err := note } ∧ (s.respond "").2 = {} ∧
      (s.respond "quit now").2 = { stop := true } ∧
      scriptLines script = [line, "", "quit now", "parse-key ip6ttl"] := by
    refine ⟨?_, ?_, ?_, ?_, ?_, ?_⟩ <;> cbv
  have hread : s.linesRead (scriptLines script ++ ["EOF"]) = [line, "", "quit now"] := by
    rw [hscript]
    simp only [List.cons_append, linesRead_cons, hline, hblank, hquit]
    rfl
  have hformat : s.format ∈ Format.all.map Format.label := by decide
  have ht : s.tables.TakeLabels := by
    have hnone : Extension.applyAll EntryField.standardRoom .builtin [] = .ok s.tables := rfl
    exact Extension.takeLabels_of_applyAll hnone
  have harities : s.tables.AritiesFit := by decide
  have hlength : Fits line.length := by decide
  have hrejected : s.Rejected line := Or.inl ⟨_, _, hcommand, hparse⟩
  obtain ⟨hsame, -, hfails, hfault, hrun⟩ :=
    lines_do_not_interfere s [line, "?", "ip6ttl"] line script
  obtain ⟨hfailed, -, hgoes⟩ := hfails hrejected
  rw [hread] at hrun
  simp only [responses, List.map_cons, List.map_nil, hline, hblank, hquit] at hrun
  refine ⟨hformat, ht, harities, hlength, hrejected, hsame.trans hline, hfailed, hgoes,
    hfault hformat ht harities hlength, ?_⟩
  rw [congrArg Prod.snd hrun]
  simp [String.join_cons, String.append_assoc]

/-- Not every line can be answered: a function may build group calls with a key in the place of a label,
and a session may have a format that does not exist. -/
theorem respond_faults :
    let pair : FunctionShape :=
      { name := "pair", arity := .exact 2, kinds := [.key], call := .group }
    let t : Tables := ⟨.builtin, ⟨[pair], by decide⟩⟩
    (({ tables := t } : Session).respond "parse-key pair:ip6ttl:ip6tos").2.fault =
        some (.unshown (.noField "KeyName" "value")) ∧
      (({ tables := .builtin, format := "xml" } : Session).respond "parse-key ip6ttl").2.fault =
        some (.unshown (.unknownFormat "xml")) := by
  intro pair t
  constructor
  · have hcommand : Command.ofLine "parse-key pair:ip6ttl:ip6tos" =
        .parseKey "pair:ip6ttl:ip6tos" := by cbv
    have hparse : Direct.parse t "pair:ip6ttl:ip6tos" = .ok (.snoc [] (.computed
        ⟨⟨.group, "pair"⟩,
          [.key ⟨"ip6ttl", "time to live"⟩, .key ⟨"ip6tos", "type of service bits"⟩]⟩)) := by cbv
    simp only [respond, hcommand, execute, parseKey, hparse, showDefinition]
    rfl
  · cbv

end Session

end TrafficKey
