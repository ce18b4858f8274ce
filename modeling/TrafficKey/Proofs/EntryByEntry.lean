import TrafficKey.Proofs.Additions

/-!
# Extension data, entry by entry

Whether extension data can be applied is decided by its entries one at a time, and then by the names of
all entries together. So the values of several files can be put into one value: each section is the
lists of that section, one after the other.
-/

namespace TrafficKey

namespace Extension

/-! ## Entries on their own -/

section

variable {α : Type}

/-- The value can be read as the only entry of a section. -/
def Readable (read : Data → Except ConfigFault (List α)) (item : Data) : Prop :=
  ∃ own, read (.list [item]) = .ok own

/-- What the value is read as when it is the only entry of a section. -/
def alone (read : Data → Except ConfigFault (List α)) (item : Data) : List α :=
  (read (.list [item])).toOption.getD []

/-- The section is a list, and its entries are read one at a time. -/
def ReadsOneByOne (read : Data → Except ConfigFault (List α)) : Prop :=
  ∀ value entries, read value = .ok entries ↔
    ∃ items, value.items? = some items ∧ (∀ item ∈ items, Readable read item) ∧
      entries = items.flatMap (alone read)

variable {read : Nat → Data → Except ConfigFault α}

theorem readEntries_singleton (item : Data) :
    readEntries read 0 [item] = (read 0 item).map ([·]) := by
  rw [readEntries]
  cases read 0 item <;> rfl

/-- Where the place of an entry shows in faults only, a list is read entry by entry. -/
theorem readEntries_eq_ok_iff
    (hplace : ∀ i j item entry, read i item = .ok entry → read j item = .ok entry) {index : Nat}
    {items : List Data} {entries : List α} :
    readEntries read index items = .ok entries ↔
      (∀ item ∈ items, ∃ own, readEntries read 0 [item] = .ok own) ∧
        entries = items.flatMap fun item => (readEntries read 0 [item]).toOption.getD [] := by
  induction items generalizing index entries with
  | nil => simp [readEntries, eq_comm]
  | cons item items ih =>
    rw [readEntries, bind_eq_ok, List.forall_mem_cons, List.flatMap_cons, readEntries_singleton]
    constructor
    · rintro ⟨entry, hentry, h⟩
      obtain ⟨rest, hrest, h⟩ := bind_eq_ok.1 h
      cases h
      obtain ⟨hreadable, hrest⟩ := ih.1 hrest
      rw [hplace index 0 item entry hentry]
      exact ⟨⟨⟨[entry], rfl⟩, hreadable⟩, by rw [hrest]; rfl⟩
    · rintro ⟨⟨⟨own, hown⟩, hreadable⟩, hentries⟩
      cases hentry : read 0 item with
      | error fault =>
        rw [hentry] at hown
        cases hown
      | ok entry =>
        rw [hentry] at hentries
        refine ⟨entry, hplace 0 index item entry hentry, bind_eq_ok.2 ⟨_, ih.2 ⟨hreadable, rfl⟩, ?_⟩⟩
        rw [hentries]
        rfl

/-- A section reader that goes through a list of entries reads them one at a time. -/
theorem readsOneByOne
    (hplace : ∀ i j item entry, read i item = .ok entry → read j item = .ok entry)
    (fault : ConfigFault) {readSection : Data → Except ConfigFault (List α)}
    (hread : ∀ value, readSection value =
      match value.items? with
      | some items => readEntries read 0 items
      | none => .error fault) : ReadsOneByOne readSection := by
  intro value entries
  have hone : ∀ item, readSection (.list [item]) = readEntries read 0 [item] :=
    fun item => hread (.list [item])
  unfold Readable alone
  simp only [hread value, hone]
  cases value.items? with
  | none => simp
  | some items =>
    simp only [Option.some.injEq, exists_eq_left']
    exact readEntries_eq_ok_iff hplace

end

variable {room : EntryField → Nat}

theorem readName_eq_ok_iff {place : EntryPlace} {value : Data} {name : String} :
    readName room place value = .ok name ↔ value = .str name ∧ isName name = true := by
  unfold readName
  split
  · rename_i s
    by_cases hs : isName s = true
    · rw [if_pos hs]
      constructor
      · intro h
        cases h
        exact ⟨rfl, hs⟩
      · rintro ⟨h, -⟩
        cases h
        rfl
    · rw [if_neg hs]
      constructor
      · intro h
        cases h
      · rintro ⟨h, hname⟩
        cases h
        exact absurd hname hs
  · rename_i hvalue
    constructor
    · intro h
      cases h
    · rintro ⟨h, -⟩
      exact absurd h (hvalue name)

theorem readName_place {place place' : EntryPlace} {value : Data} {name : String}
    (h : readName room place value = .ok name) : readName room place' value = .ok name :=
  readName_eq_ok_iff.2 (readName_eq_ok_iff.1 h)

theorem readKeyName_place (i j : Nat) (item : Data) (entry : KeyName)
    (h : readKeyName room i item = .ok entry) : readKeyName room j item = .ok entry := by
  unfold readKeyName at h ⊢
  split at h
  · obtain ⟨name, hname, h⟩ := bind_eq_ok.1 h
    exact bind_eq_ok.2 ⟨name, readName_place hname, h⟩
  · obtain ⟨name, hname, h⟩ := bind_eq_ok.1 h
    exact bind_eq_ok.2 ⟨name, readName_place hname, h⟩
  · obtain ⟨name, hname, h⟩ := bind_eq_ok.1 h
    exact bind_eq_ok.2 ⟨name, readName_place hname, h⟩
  · cases h

theorem readFunction_place (i j : Nat) (item : Data) (shape : FunctionShape)
    (h : readFunction room i item = .ok shape) : readFunction room j item = .ok shape := by
  unfold readFunction at h ⊢
  split at h
  · obtain ⟨name, hname, h⟩ := bind_eq_ok.1 h
    exact bind_eq_ok.2 ⟨name, readName_place hname, h⟩
  · cases h

theorem readKeyNames_one_by_one : ReadsOneByOne (readKeyNames room) :=
  readsOneByOne readKeyName_place .keyNamesNotList (fun _ => rfl)

theorem readFunctions_one_by_one : ReadsOneByOne (readFunctions room) :=
  readsOneByOne readFunction_place .functionsNotList (fun _ => rfl)

/-- A key name is read with a name that is an identifier. -/
theorem isName_of_readKeyName {i : Nat} {item : Data} {entry : KeyName}
    (h : readKeyName room i item = .ok entry) : isName entry.name = true := by
  unfold readKeyName at h
  split at h
  · obtain ⟨name, hname, h⟩ := bind_eq_ok.1 h
    cases h
    exact (readName_eq_ok_iff.1 hname).2
  · obtain ⟨name, hname, h⟩ := bind_eq_ok.1 h
    cases h
    exact (readName_eq_ok_iff.1 hname).2
  · obtain ⟨name, hname, h⟩ := bind_eq_ok.1 h
    obtain ⟨description, -, h⟩ := bind_eq_ok.1 h
    cases h
    exact (readName_eq_ok_iff.1 hname).2
  · cases h

/-- A declared function has the name, the kind of call and the labels it was declared with. -/
theorem declare_eq_ok {name description : String} {arity : Arity} {kinds : List ArgKind}
    {labels : Bool} {call : CallKind} {shape : FunctionShape}
    (h : FunctionShape.declare name arity kinds labels call description = .ok shape) :
    shape.name = name ∧ shape.call = call := by
  unfold FunctionShape.declare at h
  split at h
  · cases h
  · split at h
    · cases h
    · split at h
      · cases h
      · cases h
        exact ⟨rfl, rfl⟩

/-- A function is read with a name that is an identifier, and its calls are plain ones. -/
theorem of_readFunction {i : Nat} {item : Data} {shape : FunctionShape}
    (h : readFunction room i item = .ok shape) : isName shape.name = true ∧ shape.call = .plain := by
  unfold readFunction at h
  split at h
  · obtain ⟨name, hname, h⟩ := bind_eq_ok.1 h
    obtain ⟨labels, -, h⟩ := bind_eq_ok.1 h
    obtain ⟨arity, -, h⟩ := bind_eq_ok.1 h
    obtain ⟨kinds, -, h⟩ := bind_eq_ok.1 h
    obtain ⟨description, -, h⟩ := bind_eq_ok.1 h
    obtain ⟨hshape, hcall⟩ := declare_eq_ok (mapError_eq_ok_iff.1 h)
    exact ⟨hshape ▸ (readName_eq_ok_iff.1 hname).2, hcall⟩
  · cases h

/-! ## Sections -/

/-- The section of this name. -/
def section? (name : String) (data : Data) : Option Data :=
  data.entries?.bind (Data.get? · name)

/-- The values that a section lists; a missing section lists none. -/
def sectionItems (name : String) (data : Data) : List Data :=
  ((section? name data).bind Data.items?).getD []

/-- The data is a mapping with no sections but the two, and each that is there is a list. -/
structure Sectioned (data : Data) : Prop where
  only : ∃ entries, data.entries? = some entries ∧
    ∀ entry ∈ entries, entry.1 = .str "key_names" ∨ entry.1 = .str "functions"
  lists : ∀ name value, section? name data = some value → ∃ items, value.items? = some items

/-- The data has the right sections, and every entry of them can be read by itself. -/
structure Valid (room : EntryField → Nat) (data : Data) : Prop where
  sectioned : Sectioned data
  names : ∀ item ∈ sectionItems "key_names" data, Readable (readKeyNames room) item
  shapes : ∀ item ∈ sectionItems "functions" data, Readable (readFunctions room) item

/-- The key names of extension data, each read by itself. -/
def keyNamesOf (room : EntryField → Nat) (data : Data) : List KeyName :=
  (sectionItems "key_names" data).flatMap (alone (readKeyNames room))

/-- The functions of extension data, each read by itself. -/
def shapesOf (room : EntryField → Nat) (data : Data) : List FunctionShape :=
  (sectionItems "functions" data).flatMap (alone (readFunctions room))

theorem isSection_eq_true_iff {key : Data} :
    isSection key = true ↔ key = .str "key_names" ∨ key = .str "functions" := by
  cases key <;> simp [isSection]

theorem checkSections_eq_ok_iff {entries : List (Data × Data)} :
    checkSections entries = .ok () ↔
      ∀ entry ∈ entries, entry.1 = .str "key_names" ∨ entry.1 = .str "functions" := by
  have hunknown : ((entries.map (·.1)).filter (!isSection ·)).isEmpty = true ↔
      ∀ entry ∈ entries, entry.1 = .str "key_names" ∨ entry.1 = .str "functions" := by
    simp [List.isEmpty_iff, List.filter_eq_nil_iff, isSection_eq_true_iff]
  rw [← hunknown]
  simp only [checkSections]
  split
  · rename_i hempty
    exact ⟨fun _ => hempty, fun _ => rfl⟩
  · rename_i hempty
    constructor
    · intro h
      split at h <;> cases h
    · intro h
      exact absurd h hempty

variable {α : Type} {read : Data → Except ConfigFault (List α)}

/-- What a section adds is what its values are read as by themselves. -/
theorem listed_eq_ok_iff (hread : ReadsOneByOne read) {entries : List (Data × Data)}
    {data : Data} {name : String} (hdata : data.entries? = some entries) {more : List α} :
    listed read entries name = .ok more ↔
      (∀ value, section? name data = some value → ∃ items, value.items? = some items) ∧
        (∀ item ∈ sectionItems name data, Readable read item) ∧
        more = (sectionItems name data).flatMap (alone read) := by
  have hsection : section? name data = Data.get? entries name := by
    unfold section?
    rw [hdata]
    rfl
  unfold listed sectionItems
  rw [hsection]
  cases Data.get? entries name with
  | none => simp [eq_comm]
  | some value =>
    rw [hread value more]
    cases hitems : value.items? <;> simp [hitems]

/-- A section stands in the mapping under its name. -/
theorem mem_of_section? {data value : Data} {name : String} {entries : List (Data × Data)}
    (hdata : data.entries? = some entries) (h : section? name data = some value) :
    (.str name, value) ∈ entries := by
  unfold section? Data.get? at h
  rw [hdata] at h
  obtain ⟨⟨key, found⟩, hfound, rfl⟩ := Option.map_eq_some_iff.1 h
  have hmem := List.mem_of_find?_eq_some hfound
  have hkey := List.find?_some hfound
  cases key with
  | str s =>
    have hs : s = name := by simpa using hkey
    rw [← hs]
    exact hmem
  | _ => simp at hkey

/-- What extension data adds is decided entry by entry. -/
theorem adds_iff {data : Data} {added : Addition} :
    Adds room data added ↔ Valid room data ∧ added = ⟨keyNamesOf room data, shapesOf room data⟩ := by
  constructor
  · rintro ⟨entries, hentries, hsections, hnames, hshapes⟩
    have honly := checkSections_eq_ok_iff.1 hsections
    obtain ⟨hnameList, hreadNames, hnames⟩ :=
      (listed_eq_ok_iff readKeyNames_one_by_one hentries).1 hnames
    obtain ⟨hshapeList, hreadShapes, hshapes⟩ :=
      (listed_eq_ok_iff readFunctions_one_by_one hentries).1 hshapes
    have hlists : ∀ name value, section? name data = some value →
        ∃ items, value.items? = some items := by
      intro name value hsection
      -- a section that is there is one of the two
      rcases honly _ (mem_of_section? hentries hsection) with hname | hname
      · cases hname
        exact hnameList value hsection
      · cases hname
        exact hshapeList value hsection
    refine ⟨⟨⟨⟨entries, hentries, honly⟩, hlists⟩, hreadNames, hreadShapes⟩, ?_⟩
    unfold keyNamesOf shapesOf
    rw [← hnames, ← hshapes]
  · rintro ⟨⟨⟨⟨entries, hentries, honly⟩, hlists⟩, hreadNames, hreadShapes⟩, rfl⟩
    have hnames := (listed_eq_ok_iff readKeyNames_one_by_one hentries).2
      ⟨hlists "key_names", hreadNames, rfl⟩
    have hshapes := (listed_eq_ok_iff readFunctions_one_by_one hentries).2
      ⟨hlists "functions", hreadShapes, rfl⟩
    exact ⟨entries, hentries, checkSections_eq_ok_iff.2 honly, hnames, hshapes⟩

/-! ## Several values -/

variable {t t' : Tables} {values : List Data}

/-- The entries of the tables after all values are added, whatever their names. -/
theorem applyAll_eq_ok_iff_valid :
    applyAll room t values = .ok t' ↔
      (∀ data ∈ values, Valid room data) ∧
        t'.catalog.entries = t.catalog.entries ++ values.flatMap (keyNamesOf room) ∧
        t'.registry.entries = t.registry.entries ++ values.flatMap (shapesOf room) := by
  have hforall : ∀ added, List.Forall₂ (Adds room) values added ↔
      (∀ data ∈ values, Valid room data) ∧
        added = values.map fun data => ⟨keyNamesOf room data, shapesOf room data⟩ := by
    induction values with
    | nil => simp
    | cons data values ih =>
      intro added
      rw [List.forall₂_cons_left_iff, List.forall_mem_cons, List.map_cons]
      constructor
      · rintro ⟨first, rest, hfirst, hrest, rfl⟩
        obtain ⟨hvalid, rfl⟩ := adds_iff.1 hfirst
        obtain ⟨hvalids, rfl⟩ := (ih rest).1 hrest
        exact ⟨⟨hvalid, hvalids⟩, rfl⟩
      · rintro ⟨⟨hvalid, hvalids⟩, rfl⟩
        exact ⟨_, _, adds_iff.2 ⟨hvalid, rfl⟩, (ih _).2 ⟨hvalids, rfl⟩, rfl⟩
  rw [applyAll_eq_ok_iff]
  constructor
  · rintro ⟨added, hadded, hcatalog, hregistry⟩
    obtain ⟨hvalid, rfl⟩ := (hforall added).1 hadded
    rw [List.flatMap_map] at hcatalog hregistry
    exact ⟨hvalid, hcatalog, hregistry⟩
  · rintro ⟨hvalid, hcatalog, hregistry⟩
    refine ⟨_, (hforall _).2 ⟨hvalid, rfl⟩, ?_, ?_⟩
    · rw [List.flatMap_map]
      exact hcatalog
    · rw [List.flatMap_map]
      exact hregistry

/-- Several values can be added when each is valid and no name occurs twice. -/
theorem exists_applyAll_iff :
    (∃ extended, applyAll room t values = .ok extended) ↔
      (∀ data ∈ values, Valid room data) ∧
        ((t.catalog.entries ++ values.flatMap (keyNamesOf room)).map KeyName.name).Nodup ∧
        ((t.registry.entries ++ values.flatMap (shapesOf room)).map FunctionShape.name).Nodup := by
  constructor
  · rintro ⟨extended, h⟩
    obtain ⟨hvalid, hcatalog, hregistry⟩ := applyAll_eq_ok_iff_valid.1 h
    rw [← hcatalog, ← hregistry]
    exact ⟨hvalid, extended.catalog.distinct, extended.registry.distinct⟩
  · rintro ⟨hvalid, hnames, hshapes⟩
    exact ⟨⟨⟨_, hnames⟩, ⟨_, hshapes⟩⟩, applyAll_eq_ok_iff_valid.2 ⟨hvalid, rfl, rfl⟩⟩

/-- Several values as one: each section is their lists of that section, one after the other. -/
def merged (values : List Data) : Data :=
  .record [("key_names", .list (values.flatMap (sectionItems "key_names"))),
    ("functions", .list (values.flatMap (sectionItems "functions")))]

/-- One value, by its entries. -/
theorem apply_eq_ok_iff_valid {data : Data} :
    apply room t data = .ok t' ↔
      Valid room data ∧ t'.catalog.entries = t.catalog.entries ++ keyNamesOf room data ∧
        t'.registry.entries = t.registry.entries ++ shapesOf room data := by
  rw [apply_eq_ok_iff]
  constructor
  · rintro ⟨added, hadds, hcatalog, hregistry⟩
    obtain ⟨hvalid, rfl⟩ := adds_iff.1 hadds
    exact ⟨hvalid, hcatalog, hregistry⟩
  · rintro ⟨hvalid, hcatalog, hregistry⟩
    exact ⟨_, adds_iff.2 ⟨hvalid, rfl⟩, hcatalog, hregistry⟩

theorem sectioned_merged (values : List Data) : Sectioned (merged values) := by
  have hentries : (merged values).entries? = some
      [(.str "key_names", .list (values.flatMap (sectionItems "key_names"))),
        (.str "functions", .list (values.flatMap (sectionItems "functions")))] := rfl
  refine ⟨⟨_, hentries, by simp⟩, ?_⟩
  intro name value hsection
  have hmem := mem_of_section? hentries hsection
  rcases List.mem_pair.1 hmem with h | h
  · cases h
    exact ⟨_, rfl⟩
  · cases h
    exact ⟨_, rfl⟩

/-- Values with the right sections can be applied one after the other or all at once. -/
theorem applyAll_eq_ok_iff_merged (hsectioned : ∀ data ∈ values, Sectioned data) :
    applyAll room t values = .ok t' ↔ apply room t (merged values) = .ok t' := by
  have hnames : keyNamesOf room (merged values) = values.flatMap (keyNamesOf room) :=
    List.flatMap_assoc
  have hshapes : shapesOf room (merged values) = values.flatMap (shapesOf room) :=
    List.flatMap_assoc
  have hvalid : Valid room (merged values) ↔ ∀ data ∈ values, Valid room data := by
    constructor
    · intro h data hdata
      refine ⟨hsectioned data hdata, ?_, ?_⟩
      · intro item hitem
        exact h.names item (List.mem_flatMap.2 ⟨data, hdata, hitem⟩)
      · intro item hitem
        exact h.shapes item (List.mem_flatMap.2 ⟨data, hdata, hitem⟩)
    · intro h
      refine ⟨sectioned_merged values, ?_, ?_⟩
      · intro item hitem
        obtain ⟨data, hdata, hitem⟩ := List.mem_flatMap.1 hitem
        exact (h data hdata).names item hitem
      · intro item hitem
        obtain ⟨data, hdata, hitem⟩ := List.mem_flatMap.1 hitem
        exact (h data hdata).shapes item hitem
  rw [applyAll_eq_ok_iff_valid, apply_eq_ok_iff_valid, hvalid, hnames, hshapes]

/-! ## The tables that can be made -/

/-- What a value is read as by itself is an entry of its own. -/
theorem mem_alone {α : Type} {read : Nat → Data → Except ConfigFault α}
    {readSection : Data → Except ConfigFault (List α)} {item : Data} {entry : α}
    (hread : readSection (.list [item]) = readEntries read 0 [item])
    (h : entry ∈ alone readSection item) : read 0 item = .ok entry := by
  unfold alone at h
  rw [hread, readEntries_singleton] at h
  cases hitem : read 0 item with
  | error fault => simp [hitem, Except.map, Except.toOption] at h
  | ok own =>
    have hown : entry = own := by simpa [hitem, Except.map, Except.toOption] using h
    rw [hown]

theorem isName_of_mem_keyNamesOf {data : Data} {entry : KeyName} (h : entry ∈ keyNamesOf room data) :
    isName entry.name = true := by
  obtain ⟨item, -, hentry⟩ := List.mem_flatMap.1 h
  have hread : readKeyName room 0 item = .ok entry := mem_alone rfl hentry
  exact isName_of_readKeyName hread

theorem of_mem_shapesOf {data : Data} {shape : FunctionShape} (h : shape ∈ shapesOf room data) :
    isName shape.name = true ∧ shape.call = .plain := by
  obtain ⟨item, -, hshape⟩ := List.mem_flatMap.1 h
  have hread : readFunction room 0 item = .ok shape := mem_alone rfl hshape
  exact of_readFunction hread

end Extension

/-- The tables are fit for use: names are identifiers, a name has one entry, and a function has a kind
for its arguments, takes at least one, and has labels at its end only if their number is open. -/
structure Tables.Proper (t : Tables) : Prop where
  names : ∀ entry ∈ t.catalog.entries, isName entry.name = true
  functions : ∀ shape ∈ t.registry.entries, isName shape.name = true
  catalog : ∀ name entry, t.catalog.lookup name = some entry ↔
    entry ∈ t.catalog.entries ∧ entry.name = name
  registry : ∀ name shape, t.registry.lookup name = some shape ↔
    shape ∈ t.registry.entries ∧ shape.name = name
  shapes : ∀ shape ∈ t.registry.entries, shape.kinds ≠ [] ∧ 1 ≤ shape.arity.minimum ∧
    (shape.trailingLabels = true → shape.arity.variadic = true)

namespace Extension

/-- Extension data makes proper tables of the built-in ones. -/
theorem proper_of_applyAll {room : EntryField → Nat} {values : List Data} {extended : Tables}
    (h : applyAll room .builtin values = .ok extended) : extended.Proper := by
  obtain ⟨-, hcatalog, hregistry⟩ := applyAll_eq_ok_iff_valid.1 h
  have hbuiltinNames : ∀ entry ∈ Catalog.builtinNames, isName entry.name = true := by decide
  have hbuiltinShapes : ∀ shape ∈ Registry.builtinShapes, isName shape.name = true := by decide
  refine ⟨?_, ?_, fun _ _ => Table.lookup_eq_some_iff, fun _ _ => Table.lookup_eq_some_iff, ?_⟩
  · intro entry hentry
    rw [hcatalog] at hentry
    rcases List.mem_append.1 hentry with hbuiltin | hadded
    · exact hbuiltinNames entry hbuiltin
    · obtain ⟨data, -, hadded⟩ := List.mem_flatMap.1 hadded
      exact isName_of_mem_keyNamesOf hadded
  · intro shape hshape
    rw [hregistry] at hshape
    rcases List.mem_append.1 hshape with hbuiltin | hadded
    · exact hbuiltinShapes shape hbuiltin
    · obtain ⟨data, -, hadded⟩ := List.mem_flatMap.1 hadded
      exact (of_mem_shapesOf hadded).1
  · intro shape _
    exact ⟨shape.kinds_ne_nil, shape.one_le_minimum, shape.variadic_of_labels⟩

/-- **Extension data is applied entry by entry.** Values can be applied in order to the built-in tables
just when each has no sections but the two, both lists, of entries that can be read by themselves, and
when all key names, and all names of functions, are distinct. The tables then have the built-in entries
followed by the added ones in order, and they are proper. Values with the right sections give the same
tables when their sections are put together first. -/
theorem applyAll_entry_by_entry (room : EntryField → Nat) (values : List Data) :
    ((∃ extended, applyAll room .builtin values = .ok extended) ↔
        (∀ data ∈ values, Valid room data) ∧
          ((Catalog.builtinNames ++ values.flatMap (keyNamesOf room)).map KeyName.name).Nodup ∧
          ((Registry.builtinShapes ++ values.flatMap (shapesOf room)).map FunctionShape.name).Nodup) ∧
      (∀ extended, applyAll room .builtin values = .ok extended →
        extended.catalog.entries = Catalog.builtinNames ++ values.flatMap (keyNamesOf room) ∧
          extended.registry.entries = Registry.builtinShapes ++ values.flatMap (shapesOf room) ∧
          extended.Proper) ∧
      ((∀ data ∈ values, Sectioned data) → ∀ extended,
        applyAll room .builtin values = .ok extended ↔
          apply room .builtin (merged values) = .ok extended) := by
  refine ⟨exists_applyAll_iff, ?_, ?_⟩
  · intro extended h
    obtain ⟨-, hcatalog, hregistry⟩ := applyAll_eq_ok_iff_valid.1 h
    exact ⟨hcatalog, hregistry, proper_of_applyAll h⟩
  · intro hsectioned extended
    exact applyAll_eq_ok_iff_merged hsectioned

theorem applyAll_entry_by_entry_two_values :
    let room := EntryField.standardRoom
    ∃ first second extended, applyAll room .builtin [first, second] = .ok extended ∧
      (∀ data ∈ [first, second], Sectioned data) ∧
      extended.catalog.names = Table.names Catalog.builtin ++ ["vlan", "tcpport"] ∧
      extended.registry.names = Table.names Registry.builtin ++ ["range"] ∧
      extended.Proper ∧ apply room .builtin (merged [first, second]) = .ok extended := by
  intro room
  let vlan : Data := .record [("name", .str "vlan"), ("description", .str "VLAN number")]
  let range : Data := .record [("name", .str "range"), ("arity", .record [("at_least", .int 2)]),
    ("args", .list [.str "key"]), ("trailing_labels", .bool true)]
  let first : Data := .record [("key_names", .list [vlan])]
  let second : Data := .record [("functions", .list [range]), ("key_names", .list [.str "tcpport"])]
  let shape : FunctionShape :=
    { name := "range", arity := .atLeast 2, kinds := [.key], trailingLabels := true }
  let extended : Tables :=
    ⟨⟨Catalog.builtinNames ++ [⟨"vlan", "VLAN number"⟩, ⟨"tcpport", ""⟩], by decide⟩,
      ⟨Registry.builtinShapes ++ [shape], by decide⟩⟩
  have h : applyAll room .builtin [first, second] = .ok extended := by rfl
  have hsectioned : ∀ data ∈ [first, second], Sectioned data :=
    fun data hdata => ((applyAll_eq_ok_iff_valid.1 h).1 data hdata).sectioned
  obtain ⟨-, hmade, hmerged⟩ := applyAll_entry_by_entry room [first, second]
  exact ⟨first, second, extended, h, hsectioned, by decide, by decide, (hmade extended h).2.2,
    (hmerged hsectioned extended).1 h⟩

end Extension

end TrafficKey
