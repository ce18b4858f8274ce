import TrafficKey.Extension
import TrafficKey.Proofs.Conservative
import TrafficKey.Proofs.Runs

/-!
# What extension data adds

The entries that extension data adds to the tables are read off the data alone. The tables only decide
whether these entries may be added, which is so when no name occurs twice. So applying several values
one after the other appends all their entries, and it fails just when one of the values is faulty by
itself or when a name would be repeated.
-/

namespace TrafficKey

/-! ## Tables by their entries -/

namespace Table

variable {α : Type} [Named α] {table table' : Table α} {more : List α}

theorem eq_of_entries (h : table.entries = table'.entries) : table = table' := by
  cases table
  cases table'
  cases h
  rfl

/-- Entries make a table when their names are distinct. -/
theorem ofList_eq_ok_iff {entries : List α} :
    Table.ofList entries = .ok table ↔ table.entries = entries := by
  constructor
  · exact entries_of_ofList
  · rintro rfl
    have hnone : firstRepeat? [] (table.entries.map Named.nameOf) = none :=
      (firstRepeat?_eq_none_iff [] _).2 ⟨table.distinct, by simp⟩
    unfold Table.ofList
    split
    · rfl
    · rename_i name hrepeat
      rw [hnone] at hrepeat
      cases hrepeat

theorem extend_eq_ok_iff :
    table.extend more = .ok table' ↔ table'.entries = table.entries ++ more :=
  ofList_eq_ok_iff

/-- Any of the first entries of a table make a table. -/
theorem exists_of_append {entries : List α} (h : table.entries = entries ++ more) :
    ∃ smaller : Table α, smaller.entries = entries := by
  have hdistinct := table.distinct
  rw [h, List.map_append] at hdistinct
  exact ⟨⟨entries, (List.nodup_append.1 hdistinct).1⟩, rfl⟩

/-- The entries of a table make a table in every order. -/
theorem exists_of_perm {entries : List α} (h : table.entries.Perm entries) :
    ∃ rearranged : Table α, rearranged.entries = entries :=
  ⟨⟨entries, (h.map Named.nameOf).nodup table.distinct⟩, rfl⟩

/-- A name has one entry, and the look-up gives it. -/
theorem lookup_eq_some_iff {name : String} {entry : α} :
    table.lookup name = some entry ↔ entry ∈ table.entries ∧ Named.nameOf entry = name := by
  constructor
  · intro h
    exact ⟨List.mem_of_find?_eq_some h, by simpa using List.find?_some h⟩
  · rintro ⟨hmem, rfl⟩
    cases hfound : table.lookup (Named.nameOf entry) with
    | none =>
      have hne := List.find?_eq_none.1 hfound entry hmem
      simp at hne
    | some other =>
      -- two entries of one name would be one name twice
      have hother : other ∈ table.entries := List.mem_of_find?_eq_some hfound
      have hname : Named.nameOf other = Named.nameOf entry := by
        simpa using List.find?_some hfound
      rw [List.inj_on_of_nodup_map table.distinct hother hmem hname]

end Table

theorem Tables.eq_of_entries {t t' : Tables} (hc : t.catalog.entries = t'.catalog.entries)
    (hr : t.registry.entries = t'.registry.entries) : t = t' := by
  cases t
  cases t'
  congr
  · exact Table.eq_of_entries hc
  · exact Table.eq_of_entries hr

namespace Extension

/-! ## One value -/

/-- Entries for the two tables. -/
structure Addition where
  names : List KeyName
  shapes : List FunctionShape

/-- The entries that a section lists; a missing section lists none. -/
def listed {α : Type} (read : Data → Except ConfigFault (List α)) (entries : List (Data × Data))
    (name : String) : Except ConfigFault (List α) :=
  match Data.get? entries name with
  | none => .ok []
  | some value => read value

/-- The extension data is faultless by itself and adds these entries. -/
def Adds (room : EntryField → Nat) (data : Data) (added : Addition) : Prop :=
  ∃ entries, data.entries? = some entries ∧ checkSections entries = .ok () ∧
    listed (readKeyNames room) entries "key_names" = .ok added.names ∧
    listed (readFunctions room) entries "functions" = .ok added.shapes

variable {room : EntryField → Nat} {t t' : Tables} {data : Data} {entries : List (Data × Data)}

/-- A section is added when its entries can be read and their names are new. -/
theorem add_eq_ok_iff {α : Type} [Named α] {table table' : Table α} {name : String}
    {read : Data → Except ConfigFault (List α)} {fault : String → ConfigFault} :
    (match Data.get? entries name with
      | none => .ok table
      | some value => do
        let more ← read value
        (table.extend more).mapError fault) = Except.ok table' ↔
      ∃ more, listed read entries name = .ok more ∧ table'.entries = table.entries ++ more := by
  unfold listed
  cases Data.get? entries name with
  | none =>
    constructor
    · intro h
      cases h
      exact ⟨[], rfl, (List.append_nil _).symm⟩
    · rintro ⟨more, hmore, hentries⟩
      cases hmore
      rw [List.append_nil] at hentries
      rw [Table.eq_of_entries hentries]
  | some value => simp only [bind_eq_ok, mapError_eq_ok_iff, Table.extend_eq_ok_iff]

theorem addKeyNames_eq_ok_iff {catalog catalog' : Catalog} :
    addKeyNames room entries catalog = .ok catalog' ↔
      ∃ names, listed (readKeyNames room) entries "key_names" = .ok names ∧
        catalog'.entries = catalog.entries ++ names :=
  add_eq_ok_iff

theorem addFunctions_eq_ok_iff {registry registry' : Registry} :
    addFunctions room entries registry = .ok registry' ↔
      ∃ shapes, listed (readFunctions room) entries "functions" = .ok shapes ∧
        registry'.entries = registry.entries ++ shapes :=
  add_eq_ok_iff

theorem apply_eq_ok_iff :
    apply room t data = .ok t' ↔
      ∃ added, Adds room data added ∧ t'.catalog.entries = t.catalog.entries ++ added.names ∧
        t'.registry.entries = t.registry.entries ++ added.shapes := by
  unfold apply
  constructor
  · intro h
    split at h
    · rename_i entries hentries
      obtain ⟨⟨⟩, hsections, h⟩ := bind_eq_ok.1 h
      obtain ⟨catalog, hcatalog, h⟩ := bind_eq_ok.1 h
      obtain ⟨registry, hregistry, h⟩ := bind_eq_ok.1 h
      cases h
      obtain ⟨names, hnames, hc⟩ := addKeyNames_eq_ok_iff.1 (mapError_eq_ok_iff.1 hcatalog)
      obtain ⟨shapes, hshapes, hr⟩ := addFunctions_eq_ok_iff.1 (mapError_eq_ok_iff.1 hregistry)
      exact ⟨⟨names, shapes⟩, ⟨entries, hentries, hsections, hnames, hshapes⟩, hc, hr⟩
    · cases h
  · rintro ⟨added, ⟨entries, hentries, hsections, hnames, hshapes⟩, hc, hr⟩
    have hcatalog := addKeyNames_eq_ok_iff.2 ⟨added.names, hnames, hc⟩
    have hregistry := addFunctions_eq_ok_iff.2 ⟨added.shapes, hshapes, hr⟩
    simp only [hentries, hsections, hcatalog, hregistry]
    rfl

/-! ## Several values -/

/-- Values that are applied in order append their entries in order. -/
theorem applyAll_eq_ok_iff {values : List Data} :
    applyAll room t values = .ok t' ↔
      ∃ added, List.Forall₂ (Adds room) values added ∧
        t'.catalog.entries = t.catalog.entries ++ added.flatMap Addition.names ∧
        t'.registry.entries = t.registry.entries ++ added.flatMap Addition.shapes := by
  unfold applyAll
  induction values generalizing t with
  | nil =>
    constructor
    · intro h
      cases h
      exact ⟨[], .nil, by simp, by simp⟩
    · rintro ⟨added, hadded, hc, hr⟩
      cases hadded
      rw [List.flatMap_nil, List.append_nil] at hc hr
      rw [Tables.eq_of_entries hc hr]
      rfl
  | cons data values ih =>
    rw [List.foldlM_cons, bind_eq_ok]
    constructor
    · rintro ⟨t₁, hfirst, hrest⟩
      obtain ⟨first, hadds, hc₁, hr₁⟩ := apply_eq_ok_iff.1 hfirst
      obtain ⟨rest, hadded, hc, hr⟩ := ih.1 hrest
      refine ⟨first :: rest, .cons hadds hadded, ?_, ?_⟩
      · rw [hc, hc₁, List.flatMap_cons, List.append_assoc]
      · rw [hr, hr₁, List.flatMap_cons, List.append_assoc]
    · rintro ⟨added, hadded, hc, hr⟩
      cases hadded with
      | @cons _ first _ rest hadds hrest =>
        -- names that are distinct at the end are distinct after the first value
        rw [List.flatMap_cons, ← List.append_assoc] at hc hr
        obtain ⟨catalog, hcatalog⟩ := Table.exists_of_append hc
        obtain ⟨registry, hregistry⟩ := Table.exists_of_append hr
        refine ⟨⟨catalog, registry⟩, apply_eq_ok_iff.2 ⟨first, hadds, hcatalog, hregistry⟩, ?_⟩
        refine ih.2 ⟨rest, hrest, ?_, ?_⟩
        · rw [hc, hcatalog]
        · rw [hr, hregistry]

end Extension

end TrafficKey
