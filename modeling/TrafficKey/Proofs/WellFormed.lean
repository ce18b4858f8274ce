import TrafficKey.Proofs.Runs
import TrafficKey.Proofs.Steps

/-!
# Definitions that fit their tables

What it means that a definition fits a catalog and a registry: its key names are entries of the
catalog, its calls are calls that the registry's shapes build, and no text is nested deeper than the
limit. Everything that the direct parser returns is of this kind. The argument count of a call is only
looked at when the call ends, so what is kept while a call is open is weaker: its arguments are right
wherever its shape says what an argument may be.
-/

namespace TrafficKey

/-- Whether an argument may stand where this kind is accepted. -/
def ArgKind.takes : ArgKind → Argument → Bool
  | .literal, .literal _ => true
  | .key, .key _ => true
  | .key, .nested _ _ => true
  | .keyOrLiteral, .literal _ => true
  | .keyOrLiteral, .nested _ _ => true
  | _, _ => false

/-- The shape builds such calls: with its kind of call, an accepted number of arguments and, at each
position, an argument that may stand there. -/
structure FunctionShape.Builds (shape : FunctionShape) (callee : Callee) (args : List Argument) :
    Prop where
  kind : callee.kind = shape.call
  count : shape.arity.accepts args.length = true
  positions : ∀ i arg, args[i]? = some arg → ∃ kind, shape.kindAt i = some kind ∧ kind.takes arg

/-- The argument fits the tables. -/
inductive Argument.WellFormed (t : Tables) : Argument → Prop
  | literal (value : String) : WellFormed t (.literal value)
  | key {entry : KeyName} (own : t.catalog.lookup entry.name = some entry) :
      WellFormed t (.key entry)
  | nested {callee : Callee} {args : List Argument} {shape : FunctionShape}
      (found : t.registry.lookup callee.name = some shape) (built : shape.Builds callee args)
      (args_wellFormed : ∀ arg ∈ args, WellFormed t arg) : WellFormed t (.nested callee args)

/-- The key fits the tables. A computed key fits as the nested call would. -/
inductive Key.WellFormed (t : Tables) : Key → Prop
  | name {entry : KeyName} (own : t.catalog.lookup entry.name = some entry) :
      WellFormed t (.name entry)
  | computed {call : Call} (fits : call.asArgument.WellFormed t) : WellFormed t (.computed call)

mutual

/-- How many brackets are open at once in an argument. -/
def Argument.depth : Argument → Nat
  | .literal _ => 0
  | .key _ => 0
  | .nested _ args => Argument.depths args + 1

/-- How many brackets are open at once in the arguments of a list. -/
def Argument.depths : List Argument → Nat
  | [] => 0
  | arg :: args => max arg.depth (Argument.depths args)

end

/-- How many brackets are open at once in a key. -/
def Key.depth : Key → Nat
  | .name _ => 0
  | .computed call => Argument.depths call.args

/-- The definition fits the tables. -/
def Definition.WellFormed (t : Tables) (d : Definition) : Prop :=
  ∀ key ∈ d.keys, key.WellFormed t

theorem Argument.depths_le_iff {args : List Argument} {n : Nat} :
    Argument.depths args ≤ n ↔ ∀ arg ∈ args, arg.depth ≤ n := by
  induction args with
  | nil => simp [Argument.depths]
  | cons arg args ih => rw [Argument.depths, Nat.max_le, ih, List.forall_mem_cons]

/-! ## Shapes -/

/-- A look-up gives an entry of the name that was looked up. -/
theorem Table.name_of_lookup {α : Type} [Named α] {table : Table α} {name : String} {entry : α}
    (h : table.lookup name = some entry) : Named.nameOf entry = name := by
  have hname := List.find?_some h
  simpa using hname

/-- Within an accepted number of arguments the shape says what each argument may be. -/
theorem FunctionShape.kindAt_isSome {shape : FunctionShape} {n i : Nat}
    (h : shape.arity.accepts n = true) (hi : i < n) : (shape.kindAt i).isSome = true := by
  have hlast : shape.kinds.getLast?.isSome = true := by
    simp [shape.kinds_ne_nil]
  unfold FunctionShape.kindAt
  cases hkind : shape.kinds[i]? with
  | some kind => rfl
  | none =>
    -- past the declared kinds come labels, or the last kind again
    by_cases hlabels : shape.trailingLabels = true
    · simp [hlabels]
    · have hrepeats : (shape.arity.variadic || (i : Int) < shape.arity.minimum) = true := by
        unfold Arity.accepts at h
        by_cases hv : shape.arity.variadic = true
        · simp [hv]
        · have hn : (n : Int) = shape.arity.minimum := by simpa [hv] using h
          have hlt : (i : Int) < shape.arity.minimum := by omega
          simp [hlt]
      simp only [hlabels, hrepeats, if_true]
      exact hlast

/-! ## Open calls -/

namespace Direct

/-- What has been read of a call that stands in `level` brackets. Past the arity anything may stand:
such a call is rejected when it ends. -/
structure OpenCall.WellFormed (t : Tables) (level : Nat) (call : OpenCall) : Prop where
  found : t.registry.lookup call.shape.name = some call.shape
  positions : ∀ i arg kind, call.args[i]? = some arg → call.shape.kindAt i = some kind →
    kind.takes arg = true
  args : ∀ arg ∈ call.args, arg.WellFormed t ∧ level + arg.depth ≤ maxDepth

/-- The open calls, innermost first. Each stands in as many brackets as there are calls around it. -/
def CallsWellFormed (t : Tables) : List OpenCall → Prop
  | [] => True
  | call :: outer => call.WellFormed t outer.length ∧ CallsWellFormed t outer

/-- The open calls of a stage, innermost first. -/
def Stage.calls : Stage → List OpenCall
  | .argument _ call outer => call :: outer
  | .afterArgument call outer => call :: outer
  | .opened call outer => call :: outer
  | .named _ call outer => call :: outer
  | _ => []

/-- The calls that have an open bracket, innermost first. -/
def Stage.parents : Stage → List OpenCall
  | .argument _ _ outer => outer
  | .afterArgument _ outer => outer
  | .opened call outer => call :: outer
  | .named _ call outer => call :: outer
  | _ => []

/-- What every accepted token keeps. -/
structure State.WellFormed (t : Tables) (s : State) : Prop where
  keys : ∀ key ∈ s.keys, key.WellFormed t ∧ key.depth ≤ maxDepth
  calls : CallsWellFormed t s.stage.calls
  parents : ∀ parent ∈ s.stage.parents, parent.nextKind ≠ some .literal
  depth : s.depth = s.stage.parents.length
  limit : s.stage.parents.length ≤ maxDepth

namespace OpenCall.WellFormed

variable {t : Tables} {level : Nat} {call : OpenCall}

/-- A call without arguments yet. -/
theorem start {name : Token} {shape : FunctionShape} (level : Nat)
    (h : t.registry.lookup name.value = some shape) :
    OpenCall.WellFormed t level ⟨shape, name, []⟩ := by
  have hname : shape.name = name.value := Table.name_of_lookup h
  refine ⟨?_, by simp, by simp⟩
  rw [← h, ← hname]

/-- One argument more, of the kind that the call expects next. -/
theorem push (h : call.WellFormed t level) {arg : Argument} (harg : arg.WellFormed t)
    (hkind : ∀ kind, call.nextKind = some kind → kind.takes arg = true)
    (hdepth : level + arg.depth ≤ maxDepth) : (call.push arg).WellFormed t level := by
  refine ⟨h.found, ?_, ?_⟩
  · intro i a kind hi hk
    change (call.args ++ [arg])[i]? = some a at hi
    rcases Nat.lt_trichotomy i call.args.length with hlt | rfl | hgt
    · rw [List.getElem?_append_left hlt] at hi
      exact h.positions i a kind hi hk
    · have ha : arg = a := by simpa using hi
      exact ha ▸ hkind kind hk
    · have hend : (call.args ++ [arg]).length ≤ i := by
        rw [List.length_append]
        exact hgt
      rw [List.getElem?_eq_none hend] at hi
      cases hi
  · intro a ha
    rcases List.mem_append.1 ha with ha | ha
    · exact h.args a ha
    · rw [List.mem_singleton.1 ha]
      exact ⟨harg, hdepth⟩

/-- A call that ends with an accepted argument count fits the tables. -/
theorem close (h : call.WellFormed t level)
    (ha : call.shape.arity.accepts call.args.length = true) :
    call.close.asArgument.WellFormed t := by
  refine .nested h.found ⟨rfl, ha, ?_⟩ (fun arg harg => (h.args arg harg).1)
  intro i arg hi
  have hlt : i < call.args.length := (List.getElem?_eq_some_iff.1 hi).1
  rcases Option.isSome_iff_exists.1 (FunctionShape.kindAt_isSome ha hlt) with ⟨kind, hkind⟩
  exact ⟨kind, hkind, h.positions i arg kind hi hkind⟩

theorem depths_le (h : call.WellFormed t level) (hlevel : level ≤ maxDepth) :
    level + Argument.depths call.args ≤ maxDepth := by
  have hargs : Argument.depths call.args ≤ maxDepth - level := by
    rw [Argument.depths_le_iff]
    intro arg harg
    have hdepth := (h.args arg harg).2
    omega
  omega

/-- A call outside all brackets that ends with an accepted argument count is a key that fits. -/
theorem computed (h : call.WellFormed t 0)
    (ha : call.shape.arity.accepts call.args.length = true) :
    (Key.computed call.close).WellFormed t ∧ (Key.computed call.close).depth ≤ maxDepth := by
  have hdepth := h.depths_le (Nat.zero_le _)
  rw [Nat.zero_add] at hdepth
  exact ⟨.computed (h.close ha), hdepth⟩

end OpenCall.WellFormed

/-! ## One token -/

theorem wellFormed_snoc {keys : List Key} {last : Key} {t : Tables}
    (hkeys : ∀ key ∈ keys, key.WellFormed t ∧ key.depth ≤ maxDepth)
    (hlast : last.WellFormed t ∧ last.depth ≤ maxDepth) :
    ∀ key ∈ keys ++ [last], key.WellFormed t ∧ key.depth ≤ maxDepth := by
  intro key hkey
  rcases List.mem_append.1 hkey with hkey | hkey
  · exact hkeys key hkey
  · rw [List.mem_singleton.1 hkey]
    exact hlast

/-- The entry that a look-up gives is the catalog's own. -/
theorem lookup_own {t : Tables} {name : String} {entry : KeyName}
    (h : t.catalog.lookup name = some entry) : t.catalog.lookup entry.name = some entry := by
  have hname : entry.name = name := Table.name_of_lookup h
  rw [hname, h]

theorem Step.wellFormed {t : Tables} {s s' : State} {token : Token} (h : Step t s token s')
    (hs : s.WellFormed t) : s'.WellFormed t := by
  rcases hs with ⟨hkeys, hcalls, hparents, hdepth, hlimit⟩
  cases h with
  | keyName hstage hk =>
    refine ⟨hkeys, trivial, by simp [Stage.parents], ?_, Nat.zero_le _⟩
    rcases hstage with rfl | ⟨comma, rfl⟩ <;> exact hdepth
  | openKey hk hl => exact ⟨hkeys, ⟨.start 0 hl, trivial⟩, hparents, hdepth, hlimit⟩
  | endName hk hl =>
    have hnew := wellFormed_snoc hkeys ⟨.name (lookup_own hl), Nat.zero_le _⟩
    exact ⟨hnew, trivial, hparents, hdepth, hlimit⟩
  | literal hk hkind =>
    -- past the arity the position has no kind, and there is nothing to show
    refine ⟨hkeys, ⟨hcalls.1.push (.literal _) ?_ hlimit, hcalls.2⟩, hparents, hdepth, hlimit⟩
    intro kind hnext
    cases kind with
    | literal | keyOrLiteral => rfl
    | key => exact absurd hnext hkind
  | key hk hkind hl =>
    refine ⟨hkeys, ⟨hcalls.1.push (.key (lookup_own hl)) ?_ hlimit, hcalls.2⟩, hparents, hdepth,
      hlimit⟩
    intro kind hnext
    rw [hkind] at hnext
    cases hnext
    rfl
  | @openBracket _ _ _ outer _ _ depth hk hkind hd =>
    -- the counter is the number of open brackets, so the limit bounds these
    have hbrackets : depth = outer.length := hdepth
    refine ⟨hkeys, hcalls, ?_, congrArg (· + 1) hdepth, hbrackets ▸ hd⟩
    exact List.forall_mem_cons.2 ⟨hkind, hparents⟩
  | nextArgument hk => exact ⟨hkeys, hcalls, hparents, hdepth, hlimit⟩
  | endComputed hk ha =>
    have hnew := wellFormed_snoc hkeys (hcalls.1.computed ha)
    exact ⟨hnew, trivial, hparents, hdepth, hlimit⟩
  | @closeBracket _ call parent outer _ _ depth hk ha =>
    have hbrackets : depth = outer.length + 1 := hdepth
    have hlevel : outer.length + 1 ≤ maxDepth := hlimit
    have hcall : outer.length + 1 + Argument.depths call.args ≤ maxDepth := hcalls.1.depths_le hlevel
    refine ⟨hkeys, ⟨hcalls.2.1.push (hcalls.1.close ha) ?_ ?_, hcalls.2.2⟩, ?_, ?_, ?_⟩
    · -- the parent did not expect a literal when its bracket was opened
      intro kind hnext
      have hparent := hparents parent (by simp [Stage.parents])
      cases kind with
      | literal => exact absurd hnext hparent
      | key | keyOrLiteral => rfl
    · change outer.length + (Argument.depths call.args + 1) ≤ maxDepth
      omega
    · exact fun p hp => hparents p (List.mem_cons_of_mem parent hp)
    · exact congrArg (· - 1) hbrackets
    · exact Nat.le_of_succ_le hlevel
  | nestedName hk => exact ⟨hkeys, hcalls, hparents, hdepth, hlimit⟩
  | openNested hk hl => exact ⟨hkeys, ⟨.start _ hl, hcalls⟩, hparents, hdepth, hlimit⟩

/-! ## A whole line -/

theorem feed_wellFormed {t : Tables} {tokens : List Token} {s : State}
    (h : feed t {} tokens = .ok s) : s.WellFormed t := by
  have hstart : State.WellFormed t {} :=
    ⟨by simp, trivial, by simp [Stage.parents], rfl, Nat.zero_le _⟩
  have hstep : ∀ (_ : List Token) (s : State) (token : Token) (s' : State),
      s.WellFormed t → step t s token = .ok s' → s'.WellFormed t :=
    fun _ _ _ _ hs hstep => (Step.of_step_eq hstep).wellFormed hs
  exact foldlM_invariant hstep hstart h

theorem Finish.wellFormed {t : Tables} {s : State} {d : Definition} (h : Finish t s d)
    (hs : s.WellFormed t) : ∀ key ∈ d.keys, key.WellFormed t ∧ key.depth ≤ maxDepth := by
  cases h with
  | name hl => exact wellFormed_snoc hs.keys ⟨.name (lookup_own hl), Nat.zero_le _⟩
  | computed ha => exact wellFormed_snoc hs.keys (hs.calls.1.computed ha)

/-- **Everything that is read fits the tables it was read with.** There is at least one key, and no
more than 64 brackets are open at once. -/
theorem parse_wellFormed {t : Tables} {line : String} {d : Definition}
    (h : parse t line = .ok d) :
    d.keys ≠ [] ∧ d.WellFormed t ∧ ∀ key ∈ d.keys, key.depth ≤ 64 := by
  rcases bind_eq_ok.1 h with ⟨tokens, _, hread⟩
  rcases bind_eq_ok.1 (mapError_eq_ok_iff.1 hread) with ⟨s, hfeed, hfinish⟩
  have hkeys := (Finish.of_finish_eq hfinish).wellFormed (feed_wellFormed hfeed)
  exact ⟨d.keys_ne_nil, fun key hkey => (hkeys key hkey).1, fun key hkey => (hkeys key hkey).2⟩

theorem parse_wellFormed_nested :
    ∃ d, parse .builtin "group:[null:ip6ttl:x]:low,ip6tos" = .ok d ∧
      d.keys ≠ [] ∧ d.WellFormed .builtin ∧ ∀ key ∈ d.keys, key.depth ≤ 64 := by
  have h : parse .builtin "group:[null:ip6ttl:x]:low,ip6tos" =
      .ok (.snoc [.computed ⟨⟨.group, "group"⟩,
        [.nested ⟨.plain, "null"⟩ [.key ⟨"ip6ttl", "time to live"⟩, .literal "x"],
          .literal "low"]⟩] (.name ⟨"ip6tos", "type of service bits"⟩)) := by
    cbv
  exact ⟨_, h, parse_wellFormed h⟩

end Direct

end TrafficKey
