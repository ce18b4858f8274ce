import TrafficKey.Proofs.RoundTrip
import TrafficKey.View
import TrafficKey.Warning

/-!
# The tree shows the whole definition

The tree of a definition is read back line by line. What a line says is told by its first word, and where
the arguments of a call end is told by how far the next line is indented: the lines of the arguments are
indented further than whatever comes after them. So two definitions whose calls are of the standard kinds
have the same lines just when they are the same, and names without line breaks make the lines of one text.
-/

namespace TrafficKey

/-- The kinds of calls that come with the library. -/
def CallKind.isStandard : CallKind → Bool
  | .plain | .group | .country => true
  | .custom _ => false

/-- All calls of the definition, at any depth, are of the standard kinds. -/
def Definition.StandardCalls (d : Definition) : Prop :=
  ∀ key ∈ d.keys, ∀ call ∈ key.calls, call.callee.kind.isStandard = true

instance (d : Definition) : Decidable d.StandardCalls :=
  inferInstanceAs (Decidable (∀ key ∈ d.keys, ∀ call ∈ key.calls, call.callee.kind.isStandard = true))

/-! ## Lines -/

/-- The first of these lines, if there is one, is indented less than the lines of this level. -/
def EndsLevel (level : Nat) (lines : List String) : Prop :=
  ∀ line ∈ lines.head?, Text.indent line.toList < 2 * level

theorem endsLevel_nil (level : Nat) : EndsLevel level [] := by
  simp [EndsLevel]

theorem endsLevel_cons {level : Nat} {line : String} {lines : List String} :
    EndsLevel level (line :: lines) ↔ Text.indent line.toList < 2 * level := by
  simp [EndsLevel]

theorem EndsLevel.mono {level level' : Nat} {lines : List String} (h : EndsLevel level lines)
    (hle : level ≤ level') : EndsLevel level' lines := by
  intro line hline
  have hlt := h line hline
  omega

theorem treeLine_inj {level : Nat} {text text' : String} :
    treeLine level text = treeLine level text' ↔ text = text' := by
  unfold treeLine
  exact String.append_right_inj _

theorem indent_treeLine (level : Nat) {text : String}
    (h : ∀ c ∈ text.toList.head?, Text.isBlank c = false) :
    Text.indent (treeLine level text).toList = 2 * level := by
  have hblank : ∀ c ∈ List.replicate (2 * level) ' ', Text.isBlank c = true := by
    intro c hc
    rw [List.eq_of_mem_replicate hc]
    rfl
  have htext : text.toList.takeWhile Text.isBlank = [] := by
    cases hcs : text.toList with
    | nil => rfl
    | cons c cs =>
      rw [hcs] at h
      rw [List.takeWhile_cons_of_neg]
      simpa using h c rfl
  unfold Text.indent treeLine
  rw [String.toList_append, String.toList_ofList, List.takeWhile_append_of_pos hblank, htext]
  simp

theorem Callee.treeLine_inj (level : Nat) {f g : Callee} (hf : f.kind.isStandard = true)
    (hg : g.kind.isStandard = true) : f.treeLine level = g.treeLine level ↔ f = g := by
  rcases f with ⟨kind, name⟩
  rcases g with ⟨kind', name'⟩
  unfold Callee.treeLine
  rw [TrafficKey.treeLine_inj]
  -- the labels of the standard kinds differ in their first letters
  cases kind <;> cases kind' <;> simp_all [CallKind.isStandard, CallKind.label, String.ext_iff]

/-! ## Arguments -/

theorem Argument.exists_treeLines (level : Nat) (arg : Argument) :
    ∃ line more, arg.treeLines level = line :: more ∧ Text.indent line.toList = 2 * level := by
  cases arg with
  | literal value => exact ⟨_, [], rfl, indent_treeLine level (by simp; rfl)⟩
  | key entry => exact ⟨_, [], rfl, indent_treeLine level (by simp; rfl)⟩
  | nested callee args => exact ⟨_, _, rfl, indent_treeLine level (by simp; rfl)⟩

theorem Argument.endsLevel_treeLinesOf {level : Nat} {rest : List String} (args : List Argument)
    (h : EndsLevel (level + 1) rest) :
    EndsLevel (level + 1) (Argument.treeLinesOf level args ++ rest) := by
  cases args with
  | nil => exact h
  | cons arg args =>
    obtain ⟨line, more, hlines, hindent⟩ := arg.exists_treeLines level
    rw [Argument.treeLinesOf, hlines, List.cons_append, List.cons_append, endsLevel_cons]
    omega

/-- Where arguments of a level are printed, the level has not ended. -/
theorem Argument.not_endsLevel_treeLinesOf {level : Nat} {rest : List String} (arg : Argument)
    (args : List Argument) :
    ¬ EndsLevel level (Argument.treeLinesOf level (arg :: args) ++ rest) := by
  obtain ⟨line, more, hlines, hindent⟩ := arg.exists_treeLines level
  rw [Argument.treeLinesOf, hlines, List.cons_append, List.cons_append, endsLevel_cons]
  omega

mutual

/-- The lines of an argument show the argument and where they end, if deeper levels end there. -/
theorem Argument.treeLines_append_inj {level : Nat} {rest rest' : List String} :
    ∀ a b : Argument, (∀ call ∈ a.calls, call.callee.kind.isStandard = true) →
      (∀ call ∈ b.calls, call.callee.kind.isStandard = true) →
      EndsLevel (level + 2) rest → EndsLevel (level + 2) rest' →
      (a.treeLines level ++ rest = b.treeLines level ++ rest' ↔ a.same b = true ∧ rest = rest')
  | .literal _, .literal _, _, _, _, _ => by
    simp [Argument.treeLines, treeLine_inj, Argument.same]
  | .key _, .key _, _, _, _, _ => by
    simp [Argument.treeLines, treeLine_inj, Argument.same]
  | .nested f as, .nested g bs, ha, hb, hrest, hrest' => by
    rw [Argument.calls, List.forall_mem_cons] at ha hb
    have hcallee := Callee.treeLine_inj (level + 1) ha.1 hb.1
    have hargs := Argument.treeLinesOf_append_inj as bs ha.2 hb.2 hrest hrest'
    simp only [Argument.treeLines, List.cons_append, List.cons.injEq, true_and, hcallee, hargs,
      Argument.same, Bool.and_eq_true, beq_iff_eq, and_assoc]
  | .literal _, .key _, _, _, _, _ | .literal _, .nested _ _, _, _, _, _
  | .key _, .literal _, _, _, _, _ | .key _, .nested _ _, _, _, _, _
  | .nested _ _, .literal _, _, _, _, _ | .nested _ _, .key _, _, _, _, _ => by
    -- the first words differ
    constructor
    · intro h
      have htext := treeLine_inj.1 (List.cons.inj h).1
      simp [String.ext_iff] at htext
    · intro h
      simp [Argument.same] at h

/-- The lines of arguments show the arguments and where they end, if their level ends there. -/
theorem Argument.treeLinesOf_append_inj {level : Nat} {rest rest' : List String} :
    ∀ as bs : List Argument, (∀ call ∈ Argument.callsOf as, call.callee.kind.isStandard = true) →
      (∀ call ∈ Argument.callsOf bs, call.callee.kind.isStandard = true) →
      EndsLevel level rest → EndsLevel level rest' →
      (Argument.treeLinesOf level as ++ rest = Argument.treeLinesOf level bs ++ rest' ↔
        Argument.sameAll as bs = true ∧ rest = rest')
  | [], [], _, _, _, _ => by simp [Argument.treeLinesOf, Argument.sameAll]
  | [], b :: bs, _, _, hrest, _ => by
    constructor
    · intro h
      have hlines : rest = Argument.treeLinesOf level (b :: bs) ++ rest' := h
      rw [hlines] at hrest
      exact absurd hrest (Argument.not_endsLevel_treeLinesOf b bs)
    · intro h
      simp [Argument.sameAll] at h
  | a :: as, [], _, _, _, hrest' => by
    constructor
    · intro h
      have hlines : Argument.treeLinesOf level (a :: as) ++ rest = rest' := h
      rw [← hlines] at hrest'
      exact absurd hrest' (Argument.not_endsLevel_treeLinesOf a as)
    · intro h
      simp [Argument.sameAll] at h
  | a :: as, b :: bs, ha, hb, hrest, hrest' => by
    rw [Argument.callsOf, List.forall_mem_append] at ha hb
    have hafter := Argument.endsLevel_treeLinesOf as (hrest.mono (Nat.le_succ level))
    have hafter' := Argument.endsLevel_treeLinesOf bs (hrest'.mono (Nat.le_succ level))
    have hfirst := Argument.treeLines_append_inj a b ha.1 hb.1 (hafter.mono (Nat.le_succ _))
      (hafter'.mono (Nat.le_succ _))
    have hothers := Argument.treeLinesOf_append_inj as bs ha.2 hb.2 hrest hrest'
    rw [Argument.treeLinesOf, Argument.treeLinesOf, List.append_assoc, List.append_assoc, hfirst,
      hothers, Argument.sameAll, Bool.and_eq_true, and_assoc]

end

/-! ## Keys -/

theorem Key.exists_treeLines (key : Key) :
    ∃ line more, key.treeLines = line :: more ∧ Text.indent line.toList = 2 := by
  cases key with
  | name entry => exact ⟨_, [], rfl, indent_treeLine 1 (by simp; rfl)⟩
  | computed call => exact ⟨_, _, rfl, indent_treeLine 1 (by simp; rfl)⟩

theorem Key.endsLevel_treeLines (keys : List Key) : EndsLevel 3 (keys.flatMap Key.treeLines) := by
  cases keys with
  | nil => exact endsLevel_nil 3
  | cons key keys =>
    obtain ⟨line, more, hlines, hindent⟩ := key.exists_treeLines
    rw [List.flatMap_cons, hlines, List.cons_append, endsLevel_cons]
    omega

theorem Key.treeLines_append_inj {rest rest' : List String} :
    ∀ a b : Key, (∀ call ∈ a.calls, call.callee.kind.isStandard = true) →
      (∀ call ∈ b.calls, call.callee.kind.isStandard = true) →
      EndsLevel 3 rest → EndsLevel 3 rest' →
      (a.treeLines ++ rest = b.treeLines ++ rest' ↔ a.same b = true ∧ rest = rest')
  | .name _, .name _, _, _, _, _ => by
    simp [Key.treeLines, treeLine_inj, Key.same]
  | .computed call, .computed other, ha, hb, hrest, hrest' => by
    rw [Key.calls, List.forall_mem_cons] at ha hb
    have hcallee := Callee.treeLine_inj 2 ha.1 hb.1
    have hargs := Argument.treeLinesOf_append_inj call.args other.args ha.2 hb.2 hrest hrest'
    simp only [Key.treeLines, List.cons_append, List.cons.injEq, true_and, hcallee, hargs,
      Key.same, Call.same, Bool.and_eq_true, beq_iff_eq, and_assoc]
  | .name _, .computed _, _, _, _, _ | .computed _, .name _, _, _, _, _ => by
    constructor
    · intro h
      have htext := treeLine_inj.1 (List.cons.inj h).1
      simp [String.ext_iff] at htext
    · intro h
      simp [Key.same] at h

theorem Key.flatMap_treeLines_inj {keys keys' : List Key}
    (hkeys : ∀ key ∈ keys, ∀ call ∈ key.calls, call.callee.kind.isStandard = true)
    (hkeys' : ∀ key ∈ keys', ∀ call ∈ key.calls, call.callee.kind.isStandard = true) :
    keys.flatMap Key.treeLines = keys'.flatMap Key.treeLines ↔ Key.sameAll keys keys' = true := by
  induction keys generalizing keys' with
  | nil =>
    cases keys' with
    | nil => simp [Key.sameAll]
    | cons key' keys' =>
      obtain ⟨line, more, hlines, -⟩ := key'.exists_treeLines
      simp [hlines, Key.sameAll]
  | cons key keys ih =>
    cases keys' with
    | nil =>
      obtain ⟨line, more, hlines, -⟩ := key.exists_treeLines
      simp [hlines, Key.sameAll]
    | cons key' keys' =>
      rw [List.forall_mem_cons] at hkeys hkeys'
      rw [List.flatMap_cons, List.flatMap_cons, Key.treeLines_append_inj key key' hkeys.1
        hkeys'.1 (Key.endsLevel_treeLines keys) (Key.endsLevel_treeLines keys'), ih hkeys.2 hkeys'.2,
        Key.sameAll, Bool.and_eq_true]

theorem Key.length_eq_of_sameAll {keys keys' : List Key} (h : Key.sameAll keys keys' = true) :
    keys.length = keys'.length := by
  induction keys generalizing keys' with
  | nil =>
    cases keys' with
    | nil => rfl
    | cons key' keys' => cases h
  | cons key keys ih =>
    cases keys' with
    | nil => cases h
    | cons key' keys' =>
      rw [Key.sameAll, Bool.and_eq_true] at h
      rw [List.length_cons, List.length_cons, ih h.2]

/-- The lines of the tree of a definition. -/
def Definition.treeLines (d : Definition) : List String :=
  treeHead d.keys.length :: d.keys.flatMap Key.treeLines

theorem Definition.treeLines_inj {d d' : Definition} (hcalls : d.StandardCalls)
    (hcalls' : d'.StandardCalls) : d.treeLines = d'.treeLines ↔ d.same d' = true := by
  have hkeys := Key.flatMap_treeLines_inj hcalls hcalls'
  unfold Definition.treeLines Definition.same
  rw [List.cons.injEq, hkeys]
  constructor
  · exact And.right
  · intro h
    exact ⟨congrArg treeHead (Key.length_eq_of_sameAll h), h⟩

/-! ## The lines of a text -/

/-- There is no line break in the text. -/
def OneLine (text : String) : Prop :=
  '\n' ∉ text.toList

theorem OneLine.append {text more : String} (h : OneLine text) (h' : OneLine more) :
    OneLine (text ++ more) := by
  unfold OneLine
  rw [String.toList_append, List.mem_append]
  exact not_or.2 ⟨h, h'⟩

theorem oneLine_of_isName {text : String} (h : isName text = true) : OneLine text := by
  intro hbreak
  unfold isName at h
  rw [Bool.and_eq_true, List.all_eq_true] at h
  have hchar := h.2 '\n' hbreak
  cases hchar

theorem OneLine.treeLine {text : String} (h : OneLine text) (level : Nat) :
    OneLine (TrafficKey.treeLine level text) := by
  have hindent : OneLine (String.ofList (List.replicate (2 * level) ' ')) := by
    unfold OneLine
    rw [String.toList_ofList]
    intro hbreak
    cases List.eq_of_mem_replicate hbreak
  exact hindent.append h

theorem oneLine_treeHead (count : Nat) : OneLine (treeHead count) := by
  have hcount : OneLine (toString count) := by
    intro hbreak
    have hdigits : '\n' ∈ Nat.toDigits 10 count := by simpa using hbreak
    have hdigit := Nat.isDigit_of_mem_toDigits (by decide) (by decide) hdigits
    cases hdigit
  have hplural : OneLine (if count = 1 then "" else "s") := by
    split <;> simp [OneLine]
  have hstart : OneLine "KeyDefinition (" := by simp [OneLine]
  have hmiddle : OneLine " key" := by simp [OneLine]
  have hend : OneLine ")" := by simp [OneLine]
  exact (((hstart.append hcount).append hmiddle).append hplural).append hend

theorem splitOn_join {lines : List String} (h : ∀ line ∈ lines, OneLine line) (hne : lines ≠ []) :
    (Text.join "\n" lines).toList.splitOn '\n' = lines.map String.toList := by
  unfold Text.join
  rw [String.toList_intercalate]
  refine List.splitOn_intercalate '\n' ?_ ?_
  · intro line hline
    obtain ⟨text, htext, rfl⟩ := List.mem_map.1 hline
    exact h text htext
  · simpa using hne

/-- Texts without line breaks are the lines of the text they make. -/
theorem join_inj {lines lines' : List String} (h : ∀ line ∈ lines, OneLine line)
    (h' : ∀ line ∈ lines', OneLine line) (hne : lines ≠ []) (hne' : lines' ≠ []) :
    Text.join "\n" lines = Text.join "\n" lines' ↔ lines = lines' := by
  constructor
  · intro heq
    have hlines : lines.map String.toList = lines'.map String.toList := by
      rw [← splitOn_join h hne, ← splitOn_join h' hne', heq]
    exact List.map_injective_iff.2 (fun _ _ => String.toList_injective) hlines
  · exact congrArg (Text.join "\n")

theorem Callee.oneLine_treeLine {callee : Callee} (hkind : callee.kind.isStandard = true)
    (hname : isName callee.name = true) (level : Nat) : OneLine (callee.treeLine level) := by
  have hlabel : OneLine callee.kind.label := by
    cases h : callee.kind with
    | plain | group | country => simp [CallKind.label, OneLine]
    | custom label =>
      rw [h] at hkind
      cases hkind
  have hblank : OneLine " " := by simp [OneLine]
  exact ((hlabel.append hblank).append (oneLine_of_isName hname)).treeLine level

theorem oneLine_titled {title text : String} (htitle : OneLine title) (h : isName text = true)
    (level : Nat) : ∀ line ∈ [treeLine level (title ++ text)], OneLine line := by
  rw [List.forall_mem_singleton]
  exact (htitle.append (oneLine_of_isName h)).treeLine level

mutual

theorem Argument.oneLine_treeLines (level : Nat) :
    ∀ arg : Argument, (∀ w ∈ arg.words, isName w = true) →
      (∀ call ∈ arg.calls, call.callee.kind.isStandard = true) →
      ∀ line ∈ arg.treeLines level, OneLine line
  | .literal value, hwords, _ =>
    oneLine_titled (by simp [OneLine]) (hwords value (List.mem_singleton_self value)) level
  | .key entry, hwords, _ =>
    oneLine_titled (by simp [OneLine]) (hwords entry.name (List.mem_singleton_self entry.name)) level
  | .nested callee args, hwords, hcalls => by
    rw [Argument.words, List.forall_mem_cons] at hwords
    rw [Argument.calls, List.forall_mem_cons] at hcalls
    have hnested : OneLine "Nested" := by simp [OneLine]
    rw [Argument.treeLines, List.forall_mem_cons, List.forall_mem_cons]
    exact ⟨hnested.treeLine level, Callee.oneLine_treeLine hcalls.1 hwords.1 (level + 1),
      Argument.oneLine_treeLinesOf (level + 2) args hwords.2 hcalls.2⟩

theorem Argument.oneLine_treeLinesOf (level : Nat) :
    ∀ args : List Argument, (∀ w ∈ Argument.wordsAll args, isName w = true) →
      (∀ call ∈ Argument.callsOf args, call.callee.kind.isStandard = true) →
      ∀ line ∈ Argument.treeLinesOf level args, OneLine line
  | [], _, _ => by simp [Argument.treeLinesOf]
  | arg :: args, hwords, hcalls => by
    rw [Argument.wordsAll, List.forall_mem_append] at hwords
    rw [Argument.callsOf, List.forall_mem_append] at hcalls
    rw [Argument.treeLinesOf, List.forall_mem_append]
    exact ⟨Argument.oneLine_treeLines level arg hwords.1 hcalls.1,
      Argument.oneLine_treeLinesOf level args hwords.2 hcalls.2⟩

end

theorem Key.oneLine_treeLines {key : Key} (hwords : ∀ w ∈ key.words, isName w = true)
    (hcalls : ∀ call ∈ key.calls, call.callee.kind.isStandard = true) :
    ∀ line ∈ key.treeLines, OneLine line := by
  cases key with
  | name entry =>
    exact oneLine_titled (by simp [OneLine])
      (hwords entry.name (List.mem_singleton_self entry.name)) 1
  | computed call =>
    rw [Key.words, Call.asArgument, Argument.words, List.forall_mem_cons] at hwords
    rw [Key.calls, List.forall_mem_cons] at hcalls
    have hcomputed : OneLine "KeyFunction" := by simp [OneLine]
    rw [Key.treeLines, List.forall_mem_cons, List.forall_mem_cons]
    exact ⟨hcomputed.treeLine 1, Callee.oneLine_treeLine hcalls.1 hwords.1 2,
      Argument.oneLine_treeLinesOf 3 call.args hwords.2 hcalls.2⟩

theorem Definition.oneLine_treeLines {d : Definition} (hwords : ∀ w ∈ d.words, isName w = true)
    (hcalls : d.StandardCalls) : ∀ line ∈ d.treeLines, OneLine line := by
  unfold Definition.treeLines
  rw [List.forall_mem_cons]
  refine ⟨oneLine_treeHead d.keys.length, ?_⟩
  intro line hline
  obtain ⟨key, hkey, hmem⟩ := List.mem_flatMap.1 hline
  have hkeyWords : ∀ w ∈ key.words, isName w = true := by
    intro w hw
    exact hwords w (List.mem_flatMap.2 ⟨key, hkey, hw⟩)
  exact Key.oneLine_treeLines hkeyWords (hcalls key hkey) line hmem

/-- **The tree shows the whole definition.** If all names and bare words of two definitions are names and
their calls are of the standard kinds, the definitions have the same tree just when they are the same,
kinds of calls included. -/
theorem Definition.tree_eq_iff_same {d d' : Definition} (hwords : ∀ w ∈ d.words, isName w = true)
    (hcalls : d.StandardCalls) (hwords' : ∀ w ∈ d'.words, isName w = true)
    (hcalls' : d'.StandardCalls) : d.tree = d'.tree ↔ d.same d' = true := by
  have hlines : d.tree = d'.tree ↔ d.treeLines = d'.treeLines :=
    join_inj (Definition.oneLine_treeLines hwords hcalls)
      (Definition.oneLine_treeLines hwords' hcalls') (List.cons_ne_nil _ _) (List.cons_ne_nil _ _)
  exact hlines.trans (Definition.treeLines_inj hcalls hcalls')

/-- The trees differ in the indentation of one line: the word `x` belongs to the inner or to the outer
call. -/
theorem Definition.tree_eq_iff_same_moved_word :
    ∃ d d' : Definition, d.text = "group:[null:ip6ttl:x]:y" ∧ d'.text = "group:[null:ip6ttl]:x:y" ∧
      (∀ w ∈ d.words, isName w = true) ∧ d.StandardCalls ∧ (∀ w ∈ d'.words, isName w = true) ∧
      d'.StandardCalls ∧ d.tree ≠ d'.tree := by
  let ttl : KeyName := ⟨"ip6ttl", "time to live"⟩
  let inner : Callee := ⟨.plain, "null"⟩
  let outer : Callee := ⟨.group, "group"⟩
  let d : Definition := .snoc [] (.computed
    ⟨outer, [.nested inner [.key ttl, .literal "x"], .literal "y"]⟩)
  let d' : Definition := .snoc [] (.computed
    ⟨outer, [.nested inner [.key ttl], .literal "x", .literal "y"]⟩)
  have hwords : ∀ w ∈ d.words, isName w = true := by decide
  have hwords' : ∀ w ∈ d'.words, isName w = true := by decide
  have hcalls : d.StandardCalls := by decide
  have hcalls' : d'.StandardCalls := by decide
  have hdiffer : ¬ d.same d' = true := by decide
  refine ⟨d, d', by decide, by decide, hwords, hcalls, hwords', hcalls', ?_⟩
  intro htree
  exact hdiffer ((Definition.tree_eq_iff_same hwords hcalls hwords' hcalls').1 htree)

end TrafficKey
