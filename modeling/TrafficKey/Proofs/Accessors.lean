import TrafficKey.Proofs.EntryByEntry
import TrafficKey.Proofs.LooseViews
import TrafficKey.Proofs.WellFormed

/-!
# Accessors of what is read

The accessors of group calls and country calls take the arguments that they ask for without a look at
them. They are right to do so. Only the built-in functions build such calls, extension data can only
declare plain ones, and reading checks each argument against the kind that the function declares for
its position. So every view of a definition that was read exists.
-/

namespace TrafficKey

/-! ## Canonical forms -/

/-- Where a key is expected, there is a key. -/
theorem ArgKind.exists_key_of_takes {arg : Argument} (h : ArgKind.key.takes arg = true) :
    ∃ key : Key, arg = key.asArgument := by
  cases arg with
  | literal value => simp [ArgKind.takes] at h
  | key entry => exact ⟨.name entry, rfl⟩
  | nested callee args => exact ⟨.computed ⟨callee, args⟩, rfl⟩

/-- Where a bare word is expected, there is a bare word. -/
theorem ArgKind.exists_literal_of_takes {arg : Argument} (h : ArgKind.literal.takes arg = true) :
    ∃ value, Argument.literal value = arg := by
  cases arg with
  | literal value => exact ⟨value, rfl⟩
  | key entry => simp [ArgKind.takes] at h
  | nested callee args => simp [ArgKind.takes] at h

namespace FunctionShape

variable {shape : FunctionShape} {callee : Callee} {args : List Argument}

/-- The argument at a position is of the kind that the shape declares for it. -/
theorem Builds.takes (h : shape.Builds callee args) {i : Nat} {arg : Argument} {kind : ArgKind}
    (hi : args[i]? = some arg) (hkind : shape.kindAt i = some kind) : kind.takes arg = true := by
  rcases h.positions i arg hi with ⟨other, hother, htakes⟩
  rw [hkind] at hother
  cases hother
  exact htakes

/-- Arguments that may only be bare words are bare words. -/
theorem Builds.exists_labels {first : Argument} {rest : List Argument}
    (h : shape.Builds callee (first :: rest))
    (hkinds : ∀ i < rest.length, shape.kindAt (i + 1) = some .literal) :
    ∃ labels : List String, rest = labels.map Argument.literal := by
  have hrange : ∀ arg ∈ rest, arg ∈ Set.range Argument.literal := by
    intro arg harg
    rcases List.mem_iff_getElem?.1 harg with ⟨i, hi⟩
    have hnext : (first :: rest)[i + 1]? = some arg := by
      rw [List.getElem?_cons_succ]
      exact hi
    have hlt : i < rest.length := (List.getElem?_eq_some_iff.1 hi).1
    exact ArgKind.exists_literal_of_takes (h.takes hnext (hkinds i hlt))
  have hlabels : rest ∈ Set.range (List.map Argument.literal) := by
    rw [Set.range_list_map]
    exact hrange
  rcases hlabels with ⟨labels, rfl⟩
  exact ⟨labels, rfl⟩

/-- Every call of the function has the arguments that the accessors of its kind ask for. -/
def BuildsRegular (shape : FunctionShape) : Prop :=
  ∀ callee args, shape.Builds callee args → Call.Regular ⟨callee, args⟩

/-- Plain calls have no accessors. -/
theorem buildsRegular_of_plain (h : shape.call = .plain) : shape.BuildsRegular := by
  intro callee args hbuilds
  have hkind : callee.kind = .plain := hbuilds.kind.trans h
  constructor
  · intro hgroup
    rw [hkind] at hgroup
    cases hgroup
  · intro hcountry
    rw [hkind] at hcountry
    cases hcountry

/-- A key and then at least one bare word are what a group call needs. -/
theorem buildsRegular_of_group (hcall : shape.call = .group) (harity : shape.arity = .atLeast 2)
    (hfirst : shape.kindAt 0 = some .key) (hrest : ∀ i, shape.kindAt (i + 1) = some .literal) :
    shape.BuildsRegular := by
  intro callee args hbuilds
  have hkind : callee.kind = .group := hbuilds.kind.trans hcall
  have hcount : 2 ≤ args.length := by
    have h := hbuilds.count
    rw [harity] at h
    simpa [Arity.accepts, Arity.atLeast] using h
  constructor
  · intro _
    cases args with
    | nil => simp at hcount
    | cons first rest =>
      rcases ArgKind.exists_key_of_takes (hbuilds.takes rfl hfirst) with ⟨key, rfl⟩
      rcases hbuilds.exists_labels fun i _ => hrest i with ⟨labels, rfl⟩
      refine ⟨key, labels, ?_, rfl⟩
      rintro rfl
      simp at hcount
  · intro hcountry
    rw [hkind] at hcountry
    cases hcountry

/-- One bare word is what a country call needs. -/
theorem buildsRegular_of_country (hcall : shape.call = .country) (harity : shape.arity = .exact 1)
    (hfirst : shape.kindAt 0 = some .literal) : shape.BuildsRegular := by
  intro callee args hbuilds
  have hkind : callee.kind = .country := hbuilds.kind.trans hcall
  have hcount : args.length = 1 := by
    have h := hbuilds.count
    rw [harity] at h
    simpa [Arity.accepts, Arity.exact] using h
  constructor
  · intro hgroup
    rw [hkind] at hgroup
    cases hgroup
  · intro _
    rcases List.length_eq_one_iff.1 hcount with ⟨arg, rfl⟩
    rcases ArgKind.exists_literal_of_takes (hbuilds.takes rfl hfirst) with ⟨value, rfl⟩
    exact ⟨value, rfl⟩

end FunctionShape

/-! ## Reachable tables -/

theorem Registry.buildsRegular_of_builtin :
    ∀ shape ∈ Registry.builtinShapes, shape.BuildsRegular := by
  unfold Registry.builtinShapes
  simp only [List.forall_mem_cons]
  refine ⟨?_, ?_, ?_, ?_, ?_, by simp⟩
  · exact FunctionShape.buildsRegular_of_group rfl rfl rfl fun i => rfl
  · exact FunctionShape.buildsRegular_of_country rfl rfl rfl
  · exact FunctionShape.buildsRegular_of_plain rfl
  · exact FunctionShape.buildsRegular_of_plain rfl
  · exact FunctionShape.buildsRegular_of_plain rfl

namespace Extension

/-- Extension data declares plain functions, so it adds no call with accessors. -/
theorem buildsRegular_of_applyAll {room : EntryField → Nat} {values : List Data} {t : Tables}
    (h : applyAll room .builtin values = .ok t) : ∀ shape ∈ t.registry.entries, shape.BuildsRegular := by
  obtain ⟨-, -, hregistry⟩ := applyAll_eq_ok_iff_valid.1 h
  intro shape hshape
  rw [hregistry] at hshape
  rcases List.mem_append.1 hshape with hbuiltin | hadded
  · exact Registry.buildsRegular_of_builtin shape hbuiltin
  · obtain ⟨data, -, hadded⟩ := List.mem_flatMap.1 hadded
    exact FunctionShape.buildsRegular_of_plain (of_mem_shapesOf hadded).2

end Extension

/-! ## Calls at any depth -/

theorem Argument.mem_callsOf {args : List Argument} {call : Call} :
    call ∈ Argument.callsOf args ↔ ∃ arg ∈ args, call ∈ arg.calls := by
  induction args with
  | nil => simp [Argument.callsOf]
  | cons arg args ih => rw [Argument.callsOf, List.mem_append, ih, List.exists_mem_cons_iff]

variable {t : Tables}

/-- What holds of all calls that the functions of the tables build holds of all calls in an argument that
fits the tables. -/
theorem Argument.WellFormed.forall_calls {P : Call → Prop}
    (ht : ∀ shape ∈ t.registry.entries, ∀ callee args, shape.Builds callee args → P ⟨callee, args⟩)
    {arg : Argument} (h : arg.WellFormed t) : ∀ call ∈ arg.calls, P call := by
  induction h with
  | literal value => simp [Argument.calls]
  | key own => simp [Argument.calls]
  | nested found built _ ih =>
    rw [Argument.calls, List.forall_mem_cons]
    constructor
    · have hshape := (Table.lookup_eq_some_iff.1 found).1
      exact ht _ hshape _ _ built
    · intro call hcall
      obtain ⟨arg, harg, hcall⟩ := Argument.mem_callsOf.1 hcall
      exact ih arg harg call hcall

theorem Key.WellFormed.forall_calls {P : Call → Prop}
    (ht : ∀ shape ∈ t.registry.entries, ∀ callee args, shape.Builds callee args → P ⟨callee, args⟩)
    {key : Key} (h : key.WellFormed t) : ∀ call ∈ key.calls, P call := by
  cases h with
  | name own => simp [Key.calls]
  | computed fits => exact fits.forall_calls ht

theorem Key.WellFormed.regular (ht : ∀ shape ∈ t.registry.entries, shape.BuildsRegular)
    {key : Key} (h : key.WellFormed t) : ∀ call ∈ key.calls, call.Regular :=
  h.forall_calls ht

namespace Direct

/-- **A definition that was read has every view.** With tables that extension data made of the
built-in ones, its text, its data, its tree and its warnings exist as views of a loose node and are
those of the definition; and each group call at any depth has a key and at least one label, each
country call a string. -/
theorem views_of_parse {room : EntryField → Nat} {values : List Data} {t : Tables} {line : String}
    {d : Definition}
    (ht : Extension.applyAll room .builtin values = .ok t) (h : parse t line = .ok d) :
    d.toNode.text = .ok d.text ∧ d.toNode.data = .ok d.data ∧ d.toNode.tree = .ok d.tree ∧
      d.toNode.warnings = .ok d.warnings ∧
      ∀ key ∈ d.keys, ∀ call ∈ key.calls,
        (call.callee.kind = .group → ∃ wrapped : Key, call.toNode.groupKey = .ok wrapped.toNode ∧
          call.toNode.labels = .ok call.labels ∧ call.labels ≠ []) ∧
        (call.callee.kind = .country → ∃ value, call.toNode.countryArgument = .ok value) := by
  rcases bind_eq_ok.1 h with ⟨tokens, _, hread⟩
  rcases bind_eq_ok.1 (mapError_eq_ok_iff.1 hread) with ⟨s, hfeed, hfinish⟩
  have hkeys := (Finish.of_finish_eq hfinish).wellFormed (feed_wellFormed hfeed)
  have hshapes := Extension.buildsRegular_of_applyAll ht
  have hregular : ∀ key ∈ d.keys, ∀ call ∈ key.calls, call.Regular :=
    fun key hkey => (hkeys key hkey).1.regular hshapes
  refine ⟨d.toNode_text, d.toNode_data, d.toNode_tree, Definition.toNode_warnings hregular, ?_⟩
  intro key hkey call hcall
  have hcall := hregular key hkey call hcall
  exact ⟨hcall.group_fields, hcall.country_fields⟩

theorem views_of_parse_nested :
    ∃ max t d, Extension.applyAll EntryField.standardRoom .builtin [max] = .ok t ∧
      parse t "max:[group:[country:x]:low:low]:ip6ttl" = .ok d ∧
      d.toNode.text = .ok d.text ∧ d.toNode.data = .ok d.data ∧ d.toNode.tree = .ok d.tree ∧
      d.toNode.warnings = .ok [.repeatedLabel "low" 0] ∧
      ∃ key ∈ d.keys, ∃ group ∈ key.calls, ∃ country ∈ key.calls, ∃ wrapped : Key,
        group.toNode.groupKey = .ok wrapped.toNode ∧ group.toNode.labels = .ok ["low", "low"] ∧
        ∃ value, country.toNode.countryArgument = .ok value := by
  let max : Data := .record [("functions", .list [.record [("name", .str "max"),
    ("arity", .record [("at_least", .int 2)]), ("args", .list [.str "key"])]])]
  let shape : FunctionShape := { name := "max", arity := .atLeast 2, kinds := [.key] }
  let t : Tables := ⟨.builtin, ⟨Registry.builtinShapes ++ [shape], by decide⟩⟩
  let country : Call := ⟨⟨.country, "country"⟩, [.literal "x"]⟩
  let group : Call := ⟨⟨.group, "group"⟩, [country.asArgument, .literal "low", .literal "low"]⟩
  let key : Key := .computed ⟨⟨.plain, "max"⟩, [group.asArgument, .key ⟨"ip6ttl", "time to live"⟩]⟩
  have ht : Extension.applyAll EntryField.standardRoom .builtin [max] = .ok t := by rfl
  have h : parse t "max:[group:[country:x]:low:low]:ip6ttl" = .ok (.snoc [] key) := by cbv
  obtain ⟨htext, hdata, htree, hwarnings, hcalls⟩ := views_of_parse ht h
  have hkey : key ∈ (Definition.snoc [] key).keys := List.mem_singleton.2 rfl
  have hgroup : group ∈ key.calls := .tail _ (.head _)
  have hcountry : country ∈ key.calls := .tail _ (.tail _ (.head _))
  obtain ⟨wrapped, hwrapped, hlabels, -⟩ := (hcalls key hkey group hgroup).1 rfl
  exact ⟨max, t, _, ht, h, htext, hdata, htree, hwarnings, key, hkey, group, hgroup, country,
    hcountry, wrapped, hwrapped, hlabels, (hcalls key hkey country hcountry).2 rfl⟩

end Direct

end TrafficKey
