import TrafficKey.Proofs.LooseViews
import TrafficKey.Proofs.Lossless

/-!
# Plain data shows all but the kinds of calls

The data of a definition names every function and every argument in its place, but not which kind of call
a function makes. So two definitions have equal data just when they are the same once all their calls are
taken as plain ones. Lines that are read with the same tables leave nothing to tell apart by kinds: the
kind of a call is that of its function, and equal data means equal text.
-/

namespace TrafficKey

/-! ## Forgetting the kinds of calls -/

mutual

/-- The argument with all calls in it taken as plain ones. -/
def Argument.kindless : Argument → Argument
  | .literal value => .literal value
  | .key entry => .key entry
  | .nested callee args => .nested ⟨.plain, callee.name⟩ (Argument.kindlessAll args)

/-- The arguments with all calls in them taken as plain ones. -/
def Argument.kindlessAll : List Argument → List Argument
  | [] => []
  | arg :: args => arg.kindless :: Argument.kindlessAll args

end

/-- The key with all calls in it taken as plain ones. -/
def Key.kindless : Key → Key
  | .name entry => .name entry
  | .computed call => .computed ⟨⟨.plain, call.callee.name⟩, Argument.kindlessAll call.args⟩

/-- The definition with all its calls taken as plain ones. -/
def Definition.kindless (d : Definition) : Definition :=
  ⟨d.keys.map Key.kindless, by simpa using d.keys_ne_nil⟩

/-! ## Equal data

What an argument or a key is shows in the first field of its record. -/

mutual

theorem Argument.data_eq_iff :
    ∀ a b : Argument, a.data = b.data ↔ a.kindless.same b.kindless = true
  | .nested f as, .nested g bs => by
    simp [Argument.data, Data.record, Argument.kindless, Argument.same, Argument.dataOf_eq_iff as bs]
  | .literal _, .literal _ | .literal _, .key _ | .literal _, .nested _ _
  | .key _, .literal _ | .key _, .key _ | .key _, .nested _ _
  | .nested _ _, .literal _ | .nested _ _, .key _ => by
    simp [Argument.data, Data.record, Argument.kindless, Argument.same]

theorem Argument.dataOf_eq_iff : ∀ as bs : List Argument,
    Argument.dataOf as = Argument.dataOf bs ↔
      Argument.sameAll (Argument.kindlessAll as) (Argument.kindlessAll bs) = true
  | [], [] | [], _ :: _ | _ :: _, [] => by
    simp [Argument.dataOf, Argument.kindlessAll, Argument.sameAll]
  | a :: as, b :: bs => by
    simp [Argument.dataOf, Argument.kindlessAll, Argument.sameAll, Argument.data_eq_iff a b,
      Argument.dataOf_eq_iff as bs]

end

theorem Key.data_eq_iff (a b : Key) : a.data = b.data ↔ a.kindless.same b.kindless = true := by
  cases a with
  | name entry =>
    cases b with
    | name other | computed call => simp [Key.data, Data.record, Key.kindless, Key.same]
  | computed call =>
    cases b with
    | name entry => simp [Key.data, Data.record, Key.kindless, Key.same]
    | computed other =>
      simp [Key.data, Call.data, Data.record, Key.kindless, Key.same, Call.same,
        Argument.dataOf_eq_iff]

theorem Key.map_data_eq_iff (keys keys' : List Key) :
    keys.map Key.data = keys'.map Key.data ↔
      Key.sameAll (keys.map Key.kindless) (keys'.map Key.kindless) = true := by
  induction keys generalizing keys' with
  | nil => cases keys' <;> simp [Key.sameAll]
  | cons key keys ih =>
    cases keys' with
    | nil => simp [Key.sameAll]
    | cons key' keys' => simp [Key.sameAll, Key.data_eq_iff, ih]

theorem Definition.data_eq_iff_kindless (d d' : Definition) :
    d.data = d'.data ↔ d.kindless.same d'.kindless = true := by
  simp [Definition.data, Data.record, Definition.kindless, Definition.same, Key.map_data_eq_iff]

/-! ## Comparing data

Data is also compared as values are, which counts numbers of different types as equal. The data of a
definition has no numbers in it, so this makes no difference. -/

mutual

theorem Argument.data_same :
    ∀ a b : Argument, a.data.same b.data = a.kindless.same b.kindless
  | .nested f as, .nested g bs => by
    simp [Argument.data, Data.record, Data.same, Data.sameEntries, Argument.dataOf_same as bs,
      Argument.kindless, Argument.same, Callee.beq_eq]
  | .literal _, .literal _ | .literal _, .key _ | .literal _, .nested _ _
  | .key _, .literal _ | .key _, .key _ | .key _, .nested _ _
  | .nested _ _, .literal _ | .nested _ _, .key _ => by
    simp [Argument.data, Data.record, Data.same, Data.sameEntries, Argument.kindless, Argument.same]

theorem Argument.dataOf_same : ∀ as bs : List Argument,
    Data.sameItems (Argument.dataOf as) (Argument.dataOf bs) =
      Argument.sameAll (Argument.kindlessAll as) (Argument.kindlessAll bs)
  | [], [] | [], _ :: _ | _ :: _, [] => by
    simp [Argument.dataOf, Data.sameItems, Argument.kindlessAll, Argument.sameAll]
  | a :: as, b :: bs => by
    simp [Argument.dataOf, Data.sameItems, Argument.kindlessAll, Argument.sameAll,
      Argument.data_same a b, Argument.dataOf_same as bs]

end

theorem Key.data_same (a b : Key) : a.data.same b.data = a.kindless.same b.kindless := by
  cases a with
  | name entry =>
    cases b with
    | name other | computed call =>
      simp [Key.data, Data.record, Data.same, Data.sameEntries, Key.kindless, Key.same]
  | computed call =>
    cases b with
    | name entry =>
      simp [Key.data, Data.record, Data.same, Data.sameEntries, Key.kindless, Key.same]
    | computed other =>
      simp [Key.data, Call.data, Data.record, Data.same, Data.sameEntries, Argument.dataOf_same,
        Key.kindless, Key.same, Call.same, Callee.beq_eq]

theorem Key.map_data_same (keys keys' : List Key) :
    Data.sameItems (keys.map Key.data) (keys'.map Key.data) =
      Key.sameAll (keys.map Key.kindless) (keys'.map Key.kindless) := by
  induction keys generalizing keys' with
  | nil => cases keys' <;> simp [Data.sameItems, Key.sameAll]
  | cons key keys ih =>
    cases keys' with
    | nil => simp [Data.sameItems, Key.sameAll]
    | cons key' keys' => simp [Data.sameItems, Key.sameAll, Key.data_same, ih]

theorem Definition.data_same (d d' : Definition) :
    d.data.same d'.data = d.kindless.same d'.kindless := by
  simp [Definition.data, Data.record, Data.same, Data.sameEntries, Key.map_data_same,
    Definition.kindless, Definition.same]

/-! ## Lines read with the same tables -/

mutual

theorem Argument.text_kindless : ∀ arg : Argument, arg.kindless.text = arg.text
  | .literal _ => rfl
  | .key _ => rfl
  | .nested callee args => by
    rw [Argument.kindless, Argument.text, Argument.text, Argument.texts_kindlessAll args]

theorem Argument.texts_kindlessAll :
    ∀ args : List Argument, Argument.texts (Argument.kindlessAll args) = Argument.texts args
  | [] => rfl
  | arg :: args => by
    rw [Argument.kindlessAll, Argument.texts, Argument.texts, Argument.text_kindless arg,
      Argument.texts_kindlessAll args]

end

theorem Key.text_kindless (key : Key) : key.kindless.text = key.text := by
  cases key with
  | name entry => rfl
  | computed call =>
    rw [Key.kindless, Key.text, Key.text, Call.text, Call.text, Argument.texts_kindlessAll]

theorem Key.texts_map_kindless (keys : List Key) :
    Key.texts (keys.map Key.kindless) = Key.texts keys := by
  induction keys with
  | nil => rfl
  | cons key keys ih => rw [List.map_cons, Key.texts, Key.texts, key.text_kindless, ih]

theorem Definition.text_kindless (d : Definition) : d.kindless.text = d.text := by
  rcases d with ⟨_ | ⟨key, keys⟩, hne⟩
  · exact absurd rfl hne
  · simp only [Definition.kindless, Definition.text, List.map_cons]
    rw [key.text_kindless, Key.texts_map_kindless]

namespace Direct

variable {t : Tables} {line line' : String} {d d' : Definition}

/-- With the same tables, a definition is known by its text. -/
theorem eq_of_text_eq (h : parse t line = .ok d) (h' : parse t line' = .ok d')
    (htext : d.text = d'.text) : d = d' := by
  rw [text_of_parse_eq h, text_of_parse_eq h'] at htext
  exact eq_of_trimmed_eq h h' htext

theorem same_iff_eq (h : parse t line = .ok d) (h' : parse t line' = .ok d') :
    d.same d' = true ↔ d = d' := by
  constructor
  · intro hsame
    exact eq_of_text_eq h h' (Definition.text_eq_of_same hsame)
  · rintro rfl
    exact Key.sameAll_refl d.keys

theorem data_eq_iff_eq (h : parse t line = .ok d) (h' : parse t line' = .ok d') :
    d.data = d'.data ↔ d = d' := by
  constructor
  · intro hdata
    -- the text does not show the kinds of calls either
    have hsame := (d.data_eq_iff_kindless d').1 hdata
    have htext := Definition.text_eq_of_same hsame
    rw [d.text_kindless, d'.text_kindless] at htext
    exact eq_of_text_eq h h' htext
  · exact congrArg Definition.data

end Direct

/-- **Plain data loses nothing but the kinds of calls.** Two definitions have equal data, and data that
compares as equal, just when they are the same once all their calls are taken as plain ones. So the data
of two lines that are read with the same tables is equal just when the definitions are. -/
theorem Definition.data_shows_all_but_kinds (d d' : Definition) :
    (d.data = d'.data ↔ d.kindless.same d'.kindless = true) ∧
      d.data.same d'.data = d.kindless.same d'.kindless ∧
      ∀ t line line', Direct.parse t line = .ok d → Direct.parse t line' = .ok d' →
        (d.data = d'.data ↔ d.same d' = true) ∧ (d.data = d'.data ↔ d = d') := by
  refine ⟨d.data_eq_iff_kindless d', d.data_same d', ?_⟩
  intro t line line' h h'
  have heq := Direct.data_eq_iff_eq h h'
  exact ⟨heq.trans (Direct.same_iff_eq h h').symm, heq⟩

/-- Two lines that differ in one word have different data; a group call and a plain call of the same
function do not. -/
theorem Definition.data_shows_all_but_kinds_examples :
    (∃ d d', Direct.parse .builtin "or:ip6ttl:[asn:x]" = .ok d ∧
      Direct.parse .builtin " or:ip6ttl:[asn:y]" = .ok d' ∧ d.data ≠ d'.data) ∧
    ∃ d d' : Definition, d.same d' = false ∧ d.data = d'.data := by
  let read (word : String) : Definition := .snoc [] (.computed ⟨⟨.plain, "or"⟩,
    [.key ⟨"ip6ttl", "time to live"⟩, .nested ⟨.plain, "asn"⟩ [.literal word]]⟩)
  let called (kind : CallKind) : Definition :=
    .snoc [] (.computed ⟨⟨kind, "group"⟩, [.key ⟨"ip6ttl", ""⟩, .literal "low"]⟩)
  have hx : Direct.parse .builtin "or:ip6ttl:[asn:x]" = .ok (read "x") := by cbv
  have hy : Direct.parse .builtin " or:ip6ttl:[asn:y]" = .ok (read "y") := by cbv
  have hread := ((Definition.data_shows_all_but_kinds (read "x") (read "y")).2.2 _ _ _ hx hy).1
  have hwords : ¬ (read "x").same (read "y") = true := by decide
  have hcalled := (Definition.data_shows_all_but_kinds (called .group) (called .plain)).1
  have hkindless : (called .group).kindless.same (called .plain).kindless = true := by decide
  refine ⟨⟨read "x", read "y", hx, hy, ?_⟩, called .group, called .plain, by decide, ?_⟩
  · intro hdata
    exact hwords (hread.1 hdata)
  · exact hcalled.2 hkindless

end TrafficKey
