import TrafficKey.Invocation
import TrafficKey.Proofs.EntryByEntry

/-!
# Which faults of extension data are reported

Whatever is wrong with extension data is reported as a fault of the data, and the shell then ends with
exit code 2. There are two exceptions. Unknown sections are reported by listing their names, and a name that
is no string cannot be listed. And a message that shows a value goes into it level by level, so a value with
more levels than there is room for cannot be shown. Such data stops the program.
-/

namespace TrafficKey

/-! ## How deep a value is -/

namespace Data

mutual

/-- How many levels a message goes into a value, within the knots of the given numbers. -/
def levelsIn (outer : List Nat) : Data → Nat
  | .moment m => 1 + m.zoneLevels
  | .list items => 1 + levelsAmong outer items
  | .pair key value => 1 + max (key.levelsIn outer) (value.levelsIn outer)
  | .map entries => 1 + levelsAmongEntries outer entries
  | .set items => 2 + levelsAmong outer items
  | .knot id value => if outer.contains id then 1 else value.levelsIn (id :: outer)
  | _ => 1

/-- The levels of the deepest of some values. -/
def levelsAmong (outer : List Nat) : List Data → Nat
  | [] => 0
  | item :: items => max (item.levelsIn outer) (levelsAmong outer items)

/-- The levels of the deepest of the keys and values of some entries. -/
def levelsAmongEntries (outer : List Nat) : List (Data × Data) → Nat
  | [] => 0
  | (key, value) :: entries =>
    max (max (key.levelsIn outer) (value.levelsIn outer)) (levelsAmongEntries outer entries)

end

theorem one_le_levelsIn (outer : List Nat) : ∀ d : Data, 1 ≤ d.levelsIn outer
  | .null | .bool _ | .int _ | .float _ | .str _ | .rawText _ | .bytes _ | .date _ => by simp [levelsIn]
  | .moment _ | .list _ | .pair _ _ | .map _ | .set _ => by
    simp only [levelsIn]
    omega
  | .knot id value => by
    simp only [levelsIn]
    split
    · exact Nat.le_refl 1
    · exact one_le_levelsIn (id :: outer) value

theorem or_ne_tooDeep {x y : Option ShowFault} (hx : x ≠ some .tooDeep) (hy : y ≠ some .tooDeep) :
    (x <|> y) ≠ some .tooDeep := by
  cases x with
  | none => exact hy
  | some fault => exact hx

mutual

/-- There is room for a value that has no more levels. -/
theorem faultIn_ne_tooDeep (outer : List Nat) :
    ∀ (room : Nat) (d : Data), d.levelsIn outer ≤ room → d.faultIn outer room ≠ some .tooDeep
  | 0, d, h => absurd h (Nat.not_le_of_lt (one_le_levelsIn outer d))
  | _ + 1, .null, _ | _ + 1, .bool _, _ | _ + 1, .float _, _ | _ + 1, .str _, _
  | _ + 1, .rawText _, _ | _ + 1, .bytes _, _ | _ + 1, .date _, _ => by simp [faultIn]
  | _ + 1, .int n, _ => by
    simp only [faultIn]
    split <;> simp
  | room + 1, .moment m, h => by
    simp only [levelsIn] at h
    simp only [faultIn]
    rw [if_neg (by omega)]
    simp
  | room + 1, .list items, h => by
    simp only [levelsIn] at h
    simp only [faultIn]
    exact faultAmong_ne_tooDeep outer room items (by omega)
  | room + 1, .pair key value, h => by
    simp only [levelsIn] at h
    simp only [faultIn]
    exact or_ne_tooDeep (faultIn_ne_tooDeep outer room key (by omega))
      (faultIn_ne_tooDeep outer room value (by omega))
  | room + 1, .map entries, h => by
    simp only [levelsIn] at h
    simp only [faultIn]
    exact faultAmongEntries_ne_tooDeep outer room entries (by omega)
  | room + 1, .set items, h => by
    simp only [levelsIn] at h
    simp only [faultIn]
    exact faultAmong_ne_tooDeep outer (room - 1) items (by omega)
  | room + 1, .knot id value, h => by
    simp only [levelsIn] at h
    simp only [faultIn]
    split
    · simp
    · rename_i hnew
      rw [if_neg hnew] at h
      exact faultIn_ne_tooDeep (id :: outer) (room + 1) value h

theorem faultAmong_ne_tooDeep (outer : List Nat) (room : Nat) :
    ∀ items : List Data, levelsAmong outer items ≤ room → faultAmong outer room items ≠ some .tooDeep
  | [], _ => by simp [faultAmong]
  | item :: items, h => by
    simp only [levelsAmong] at h
    simp only [faultAmong]
    exact or_ne_tooDeep (faultIn_ne_tooDeep outer room item (by omega))
      (faultAmong_ne_tooDeep outer room items (by omega))

theorem faultAmongEntries_ne_tooDeep (outer : List Nat) (room : Nat) :
    ∀ entries : List (Data × Data), levelsAmongEntries outer entries ≤ room →
      faultAmongEntries outer room entries ≠ some .tooDeep
  | [], _ => by simp [faultAmongEntries]
  | (key, value) :: entries, h => by
    simp only [levelsAmongEntries] at h
    simp only [faultAmongEntries]
    exact or_ne_tooDeep (faultIn_ne_tooDeep outer room key (by omega))
      (or_ne_tooDeep (faultIn_ne_tooDeep outer room value (by omega))
        (faultAmongEntries_ne_tooDeep outer room entries (by omega)))

end

end Data

namespace Extension

/-! ## Sections -/

/-- Every key of the data, if it is a mapping, is a string. -/
def TextKeys (data : Data) : Prop :=
  ∀ entries, data.entries? = some entries →
    ∀ entry ∈ entries, (sectionText? entry.1).isSome = true

theorem isSome_mapM_sectionText? {keys : List Data} :
    (keys.mapM sectionText?).isSome = true ↔ ∀ key ∈ keys, (sectionText? key).isSome = true := by
  induction keys with
  | nil => simp
  | cons key keys ih =>
    rw [List.mapM_cons, List.forall_mem_cons, ← ih]
    cases sectionText? key <;> cases keys.mapM sectionText? <;> simp

/-- Names that cannot be listed are not reported. -/
theorem sectionFault_ne_config {keys : List Data} (hne : keys ≠ []) (fault : ConfigFault) :
    sectionFault keys ≠ .config fault := by
  cases keys with
  | nil => exact absurd rfl hne
  | cons first rest =>
    unfold sectionFault
    split
    · simp_all
    · split <;> simp

/-- The two sections are strings, so only an unknown section can be none. -/
theorem text_unknown_iff {entries : List (Data × Data)} :
    (∀ key ∈ (entries.map (·.1)).filter (!isSection ·), (sectionText? key).isSome = true) ↔
      ∀ entry ∈ entries, (sectionText? entry.1).isSome = true := by
  constructor
  · intro h entry hentry
    cases hsection : isSection entry.1 with
    | false =>
      have hkey : entry.1 ∈ entries.map (·.1) := List.mem_map.2 ⟨entry, hentry, rfl⟩
      exact h entry.1 (List.mem_filter.2 ⟨hkey, by simp [hsection]⟩)
    | true =>
      rcases isSection_eq_true_iff.1 hsection with hkey | hkey <;> simp [hkey, sectionText?]
  · intro h key hkey
    obtain ⟨entry, hentry, rfl⟩ := List.mem_map.1 (List.mem_filter.1 hkey).1
    exact h entry hentry

/-- Unknown sections are reported just when all keys are strings. -/
theorem checkSections_eq_error {entries : List (Data × Data)} {fault : ExtensionFault}
    (h : checkSections entries = .error fault) :
    (∃ reported, fault = .config reported) ↔
      ∀ entry ∈ entries, (sectionText? entry.1).isSome = true := by
  rw [← text_unknown_iff, ← isSome_mapM_sectionText?]
  simp only [checkSections] at h
  split at h
  · cases h
  · rename_i hempty
    split at h
    · rename_i names hnames
      cases h
      simp [hnames]
    · rename_i hnames
      cases h
      simp [hnames, sectionFault_ne_config (mt List.isEmpty_iff.2 hempty)]

/-! ## Entries -/

/-- If this fails, its fault is reported. -/
def Reports {α : Type} (x : Except ConfigFault α) : Prop :=
  ∀ fault, x = .error fault → fault.isReported = true

theorem reports_ok {α : Type} (a : α) : Reports (.ok a) := nofun

theorem reports_error {α : Type} {fault : ConfigFault} (h : fault.isReported = true) :
    Reports (.error fault : Except ConfigFault α) := by
  rintro _ ⟨⟩
  exact h

theorem Reports.bind {α β : Type} {x : Except ConfigFault α} {f : α → Except ConfigFault β}
    (h : Reports x) (hnext : ∀ a, Reports (f a)) : Reports (x >>= f) := by
  intro fault hfault
  rcases bind_eq_error.1 hfault with hx | ⟨a, -, ha⟩
  · exact h fault hx
  · exact hnext a fault ha

theorem Reports.mapError {α ε : Type} {f : ε → ConfigFault} (x : Except ε α)
    (h : ∀ e, (f e).isReported = true) : Reports (x.mapError f) := by
  intro fault hfault
  obtain ⟨e, -, rfl⟩ := mapError_eq_error_iff.1 hfault
  exact h e

theorem Reports.mapM {α β : Type} {f : α → Except ConfigFault β} {xs : List α}
    (h : ∀ x ∈ xs, Reports (f x)) : Reports (xs.mapM f) := by
  induction xs with
  | nil => exact reports_ok _
  | cons x xs ih =>
    rw [List.forall_mem_cons] at h
    rw [List.mapM_cons]
    exact h.1.bind fun y => (ih h.2).bind fun ys => reports_ok _

variable {room : EntryField → Nat} {place : EntryPlace} {value : Data}
  {entries : List (Data × Data)}

theorem quoted_ne_tooDeep {levels : Nat} (h : value.levelsIn [] ≤ levels) :
    value.quoted levels ≠ .error .tooDeep := by
  have hroom := Data.faultIn_ne_tooDeep [] levels value h
  unfold Data.quoted
  split
  · rename_i fault hfault
    rintro ⟨⟩
    exact hroom hfault
  · simp

theorem isReported_shown {levels : Nat} {fault : String → EntryFault} (h : value.levelsIn [] ≤ levels) :
    (shown levels place value fault).isReported = true := by
  unfold shown
  split
  · rfl
  · rfl
  · rename_i hdeep
    exact absurd hdeep (quoted_ne_tooDeep h)

theorem isReported_shownAt {levels : Nat} {fault : String → EntryFault}
    (h : value.levelsIn [] ≤ levels) : (shownAt levels place value fault).isReported = true := by
  unfold shownAt
  split
  · rfl
  · rfl
  · rename_i hdeep
    exact absurd hdeep (quoted_ne_tooDeep h)

theorem text_ne_tooDeep {levels : Nat} (h : value.levelsIn [] ≤ levels) :
    value.text levels ≠ .error .tooDeep := by
  have hroom := Data.faultIn_ne_tooDeep [] levels value h
  unfold Data.text
  split
  · simp
  · simp
  · split
    · rename_i fault hfault
      rintro ⟨⟩
      exact hroom hfault
    · simp

/-- The values that messages on an entry can show, by field. -/
def shownValues (entries : List (Data × Data)) : EntryField → List Data
  | .name => [field entries "name"]
  | .labels => (Data.get? entries "trailing_labels").toList
  | .arity =>
    match (field entries "arity").entries? with
    | some [(form, count)] => [form, count]
    | _ => []
  | .args => ((field entries "args").items?).getD []
  | .description => (Data.get? entries "description").toList

/-- No value that a message on the entry can show has more levels than there is room for. -/
def Shallow (room : EntryField → Nat) (entry : Data) : Prop :=
  match entry.entries? with
  | some entries => ∀ field, ∀ value ∈ shownValues entries field, value.levelsIn [] ≤ room field
  | none => entry.levelsIn [] ≤ room .name

theorem reports_readName (h : value.levelsIn [] ≤ room .name) : Reports (readName room place value) := by
  unfold readName
  split
  · split
    · exact reports_ok _
    · exact reports_error (isReported_shown h)
  · exact reports_error (isReported_shown h)

section

variable (h : ∀ field, ∀ value ∈ shownValues entries field, value.levelsIn [] ≤ room field)

include h

theorem reports_readDescription {long : ConfigFault} (hlong : long.isReported = true) :
    Reports (readDescription room entries long) := by
  have htext : ((Data.get? entries "description").getD (.str "")).text (room .description) ≠
      .error .tooDeep := by
    cases hvalue : Data.get? entries "description" with
    | none => simp [Data.text]
    | some value => exact text_ne_tooDeep (h .description value (by simp [shownValues, hvalue]))
  unfold readDescription
  split
  · exact reports_ok _
  · exact reports_error hlong
  · rename_i hdeep
    exact absurd hdeep htext

theorem reports_readLabels : Reports (readLabels room place entries) := by
  unfold readLabels
  split
  · exact reports_ok _
  · exact reports_ok _
  · rename_i value _ hvalue
    exact reports_error (isReported_shown (h .labels value (by simp [shownValues, hvalue])))

theorem reports_readArity : Reports (readArity room place (field entries "arity")) := by
  have harity := h .arity
  unfold shownValues at harity
  unfold readArity
  split
  · rename_i form count hentries
    simp only [hentries, List.forall_mem_cons] at harity
    split
    · split
      · exact reports_error (isReported_shownAt harity.2.1)
      · split
        · exact reports_ok _
        · exact reports_ok _
        · exact reports_error (isReported_shownAt harity.1)
    · exact reports_error (isReported_shownAt harity.2.1)
  · exact reports_error rfl

theorem reports_readKinds : Reports (readKinds room place (field entries "args")) := by
  have hargs := h .args
  unfold shownValues at hargs
  unfold readKinds
  split
  · rename_i item items hitems
    rw [hitems, Option.getD_some] at hargs
    refine Reports.mapM fun value hvalue => ?_
    unfold readKind
    split
    · split
      · exact reports_ok _
      · exact reports_error (isReported_shownAt (hargs _ hvalue))
    · exact reports_error (isReported_shownAt (hargs _ hvalue))
  · exact reports_error rfl

end

theorem reports_readKeyName (index : Nat) (h : Shallow room value) :
    Reports (readKeyName room index value) := by
  unfold Shallow at h
  unfold readKeyName
  simp only
  split
  · exact (reports_readName h).bind fun _ => reports_ok _
  · exact (reports_readName h).bind fun _ => reports_ok _
  · rename_i entries _ _ hentries
    simp only [hentries] at h
    refine (reports_readName (h .name _ (by simp [shownValues]))).bind fun _ => ?_
    exact (reports_readDescription h rfl).bind fun _ => reports_ok _
  · exact reports_error rfl

theorem reports_readFunction (index : Nat) (h : Shallow room value) :
    Reports (readFunction room index value) := by
  unfold Shallow at h
  unfold readFunction
  split
  · rename_i entries hentries
    simp only [hentries] at h
    refine (reports_readName (h .name _ (by simp [shownValues]))).bind fun _ => ?_
    refine (reports_readLabels h).bind fun _ => ?_
    refine (reports_readArity h).bind fun _ => ?_
    refine (reports_readKinds h).bind fun _ => ?_
    refine (reports_readDescription h rfl).bind fun _ => ?_
    exact Reports.mapError _ fun _ => rfl
  · exact reports_error rfl

theorem reports_readEntries {α : Type} {read : Nat → Data → Except ConfigFault α}
    {values : List Data} (h : ∀ index, ∀ value ∈ values, Reports (read index value)) (index : Nat) :
    Reports (readEntries read index values) := by
  induction values generalizing index with
  | nil => exact reports_ok _
  | cons value values ih =>
    simp only [List.forall_mem_cons] at h
    refine (h index).1.bind fun _ => ?_
    exact (ih (fun index => (h index).2) (index + 1)).bind fun _ => reports_ok _

/-! ## One value -/

/-- No value that a message on the data can show has more levels than there is room for. -/
def AllShallow (room : EntryField → Nat) (data : Data) : Prop :=
  ∀ name ∈ ["key_names", "functions"], ∀ entry ∈ sectionItems name data, Shallow room entry

variable {t : Tables} {data : Data}

/-- The fault of the data is one of its keys just when not all of them are strings. -/
theorem apply_eq_error {fault : ExtensionFault} (h : apply room t data = .error fault) :
    (∃ cause, fault = .config cause) ↔ TextKeys data := by
  unfold apply at h
  unfold TextKeys
  cases hentries : data.entries? with
  | none =>
    simp only [hentries] at h
    cases h
    simp
  | some entries =>
    simp only [hentries] at h
    simp only [Option.some.injEq, forall_eq']
    rcases bind_eq_error.1 h with hsections | ⟨⟨⟩, hsections, h⟩
    · exact checkSections_eq_error hsections
    · -- past the sections there are only faults of entries, and the sections are strings
      have htext : ∀ entry ∈ entries, (sectionText? entry.1).isSome = true := by
        intro entry hentry
        rcases checkSections_eq_ok_iff.1 hsections entry hentry with hkey | hkey <;>
          simp [hkey, sectionText?]
      refine ⟨fun _ => htext, fun _ => ?_⟩
      rcases bind_eq_error.1 h with hnames | ⟨catalog, -, h⟩
      · obtain ⟨cause, -, rfl⟩ := mapError_eq_error_iff.1 hnames
        exact ⟨cause, rfl⟩
      · rcases bind_eq_error.1 h with hshapes | ⟨registry, -, h⟩
        · obtain ⟨cause, -, rfl⟩ := mapError_eq_error_iff.1 hshapes
          exact ⟨cause, rfl⟩
        · cases h

theorem isReported_of_checkSections {cause : ConfigFault}
    (h : checkSections entries = .error (.config cause)) : cause.isReported = true := by
  simp only [checkSections] at h
  split at h
  · cases h
  · rename_i hempty
    split at h
    · cases h
      rfl
    · exact absurd (Except.error.inj h)
        (sectionFault_ne_config (mt List.isEmpty_iff.2 hempty) cause)

/-- A section is a list of entries, each of which is read. -/
theorem reports_section {α : Type} {read : Nat → Data → Except ConfigFault α} {name : String}
    {fault : ConfigFault} (hdata : data.entries? = some entries) (h : AllShallow room data)
    (hname : name ∈ ["key_names", "functions"]) (hvalue : Data.get? entries name = some value)
    (hread : ∀ index entry, Shallow room entry → Reports (read index entry))
    (hfault : fault.isReported = true) :
    Reports (match value.items? with
      | some items => readEntries read 0 items
      | none => .error fault) := by
  have hitems := h name hname
  unfold sectionItems section? at hitems
  rw [hdata] at hitems
  split
  · rename_i items hlist
    refine reports_readEntries (fun index entry hentry => hread index entry ?_) 0
    exact hitems entry (by simpa [hvalue, hlist] using hentry)
  · exact reports_error hfault

theorem reports_addKeyNames (hdata : data.entries? = some entries) (h : AllShallow room data)
    (catalog : Catalog) : Reports (addKeyNames room entries catalog) := by
  unfold addKeyNames
  split
  · exact reports_ok _
  · rename_i value hvalue
    refine Reports.bind ?_ fun _ => Reports.mapError _ fun _ => rfl
    exact reports_section hdata h (by simp) hvalue (fun _ _ => reports_readKeyName _) rfl

theorem reports_addFunctions (hdata : data.entries? = some entries) (h : AllShallow room data)
    (registry : Registry) : Reports (addFunctions room entries registry) := by
  unfold addFunctions
  split
  · exact reports_ok _
  · rename_i value hvalue
    refine Reports.bind ?_ fun _ => Reports.mapError _ fun _ => rfl
    exact reports_section hdata h (by simp) hvalue (fun _ _ => reports_readFunction _) rfl

/-- A fault of the data is reported, if there is room for the values that are shown. -/
theorem isReported_of_apply {cause : ConfigFault} (hshallow : AllShallow room data)
    (h : apply room t data = .error (.config cause)) : cause.isReported = true := by
  unfold apply at h
  split at h
  · rename_i entries hentries
    rcases bind_eq_error.1 h with hsections | ⟨-, -, h⟩
    · exact isReported_of_checkSections hsections
    · rcases bind_eq_error.1 h with hnames | ⟨catalog, -, h⟩
      · obtain ⟨_, hnames, ⟨⟩⟩ := mapError_eq_error_iff.1 hnames
        exact reports_addKeyNames hentries hshallow _ cause hnames
      · rcases bind_eq_error.1 h with hshapes | ⟨registry, -, h⟩
        · obtain ⟨_, hshapes, ⟨⟩⟩ := mapError_eq_error_iff.1 hshapes
          exact reports_addFunctions hentries hshallow _ cause hshapes
        · cases h
  · cases h
    rfl

/-- Data with a key that is no string is never applied. -/
theorem textKeys_of_apply {extended : Tables} (h : apply room t data = .ok extended) :
    TextKeys data := by
  obtain ⟨⟨⟨⟨entries, hentries, honly⟩, -⟩, -, -⟩, -⟩ := apply_eq_ok_iff_valid.1 h
  intro entries' hentries' entry hentry
  rw [hentries] at hentries'
  cases hentries'
  rcases honly entry hentry with hkey | hkey <;> simp [hkey, sectionText?]

/-! ### Values that are too deep -/

/-- A list in a list, and so on. -/
def nest : Nat → Data
  | 0 => .list []
  | n + 1 => .list [nest n]

theorem faultIn_nest (outer : List Nat) (room : Nat) :
    (nest room).faultIn outer room = some .tooDeep := by
  induction room with
  | zero => rfl
  | succ room ih =>
    simp only [nest, Data.faultIn, Data.faultAmong, ih]
    rfl

/-- A key name whose name is a list of so many levels. -/
def nestedName (levels : Nat) : Data :=
  .record [("key_names", .list [.record [("name", nest levels)]])]

theorem textKeys_nestedName (levels : Nat) : TextKeys (nestedName levels) := by
  rintro entries ⟨⟩ entry hentry
  rw [List.map_cons, List.map_nil, List.mem_singleton] at hentry
  rw [hentry]
  rfl

/-- There is no room for a name with so many levels. -/
theorem apply_nestedName (room : EntryField → Nat) (t : Tables) :
    apply room t (nestedName (room .name)) = .error (.config .tooDeep) := by
  have hname : readName room (.keyName 0) (nest (room .name)) = .error .tooDeep := by
    have hshown : shown (room .name) (.keyName 0) (nest (room .name)) .invalidName = .tooDeep := by
      unfold shown Data.quoted
      rw [faultIn_nest]
    unfold readName
    split
    · rename_i heq
      cases hroom : room .name <;> rw [hroom] at heq <;> cases heq
    · rw [hshown]
  let entry : Data := .record [("name", nest (room .name))]
  let entries : List (Data × Data) := [(.str "key_names", .list [entry])]
  have hentry : readKeyName room 0 entry = .error .tooDeep := by
    change (readName room (.keyName 0) (nest (room .name)) >>= _) = _
    rw [hname]
    rfl
  have hsection : addKeyNames room entries t.catalog = .error .tooDeep := by
    change (((readKeyName room 0 entry >>= _) : Except ConfigFault (List KeyName)) >>= _) = _
    rw [hentry]
    rfl
  change ((addKeyNames room entries t.catalog).mapError ExtensionFault.config >>= _) = _
  rw [hsection]
  rfl

/-! ## Files -/

variable {host : Host} {path : Path} {text : String}

/-- A file that can be read and holds a value is applied as that value; an empty file adds nothing. -/
theorem load_eq (hread : host.read path = .ok text) (hdata : host.yaml.load text = .ok data) :
    ∃ data', (TextKeys data' ↔ TextKeys data) ∧
      (AllShallow host.room data' ↔ AllShallow host.room data) ∧
      load host t path = (apply host.room t data').mapError (.data path) := by
  simp only [load, readFile, hread, hdata, Except.mapError, bind, Except.bind, pure, Except.pure]
  cases data with
  | null =>
    refine ⟨.map [], ?_, ?_, rfl⟩
    · simp [TextKeys, Data.entries?]
    · simp [AllShallow, sectionItems, section?, Data.entries?, Data.get?]
  | _ => exact ⟨_, Iff.rfl, Iff.rfl, rfl⟩

/-- The fault of a file that holds a value is reported just when all keys of the value are strings, if
there is room for the values that are shown. -/
theorem load_eq_error (hread : host.read path = .ok text) (hdata : host.yaml.load text = .ok data)
    (hshallow : AllShallow host.room data) {fault : LoadFault}
    (h : load host t path = .error fault) : fault.isReported = true ↔ TextKeys data := by
  obtain ⟨data', hkeys, hroom, hload⟩ := load_eq (t := t) hread hdata
  rw [hload] at h
  obtain ⟨found, hfound, rfl⟩ := mapError_eq_error_iff.1 h
  rw [← hkeys, ← apply_eq_error hfound]
  cases found with
  | config cause => simpa [LoadFault.isReported] using isReported_of_apply (hroom.2 hshallow) hfound
  | sectionType | sectionOrder => simp [LoadFault.isReported]

/-- Data with a key that is no string is never applied from a file. -/
theorem textKeys_of_load {extended : Tables} (hread : host.read path = .ok text)
    (hdata : host.yaml.load text = .ok data) (h : load host t path = .ok extended) :
    TextKeys data := by
  obtain ⟨data', hkeys, -, hload⟩ := load_eq (t := t) hread hdata
  rw [hload] at h
  exact hkeys.1 (textKeys_of_apply (mapError_eq_ok_iff.1 h))

/-- The file can be read and holds a value all of whose keys are strings, and there is room for the values
that are shown. -/
def HoldsShowable (host : Host) (path : Path) : Prop :=
  ∃ text data, host.read path = .ok text ∧ host.yaml.load text = .ok data ∧ TextKeys data ∧
    AllShallow host.room data

/-- If all files hold such values, a fault of one of them is reported. -/
theorem loadAll_eq_error {paths : List Path} (hfiles : ∀ path ∈ paths, HoldsShowable host path)
    {fault : LoadFault} (h : loadAll host t paths = .error fault) : fault.isReported = true := by
  obtain ⟨before, path, after, m, rfl, -, hload⟩ := foldlM_eq_error.1 h
  obtain ⟨text, data, hread, hdata, hkeys, hshallow⟩ := hfiles path (by simp)
  exact (load_eq_error hread hdata hshallow hload).2 hkeys

/-- **Faults of extension data are reported.** Take any host, with a YAML library and so much room for the
values that messages show. If there is room for all of them, extension data is applied or has a reported
fault, unless it is a mapping with a key that is no string: such data is never applied, and its fault is not
reported. If there is too little room, data with strings as keys may also fail over a value that is nested too
deep, and there always is such data. A file with a value is like the value. A shell whose extension files all
hold values with strings as keys, for which there is room, ends with exit code 2 if it cannot apply them. -/
theorem fault_reported_iff (host : Host) (t : Tables) (data : Data) :
    (AllShallow host.room data →
      (TextKeys data ↔
        (∃ extended, apply host.room t data = .ok extended) ∨
          ∃ fault, apply host.room t data = .error (.config fault) ∧ fault.isReported = true)) ∧
      (TextKeys data →
        (∃ extended, apply host.room t data = .ok extended) ∨
          (∃ fault, apply host.room t data = .error (.config fault) ∧ fault.isReported = true) ∨
          apply host.room t data = .error (.config .tooDeep)) ∧
      (∃ deep, TextKeys deep ∧ apply host.room t deep = .error (.config .tooDeep)) ∧
      (∀ path text, host.read path = .ok text → host.yaml.load text = .ok data →
        AllShallow host.room data →
        (TextKeys data ↔
          (∃ extended, load host t path = .ok extended) ∨
            ∃ fault, load host t path = .error fault ∧ fault.isReported = true)) ∧
      ∀ (o : Options) input,
        (∀ name ∈ o.extensions, HoldsShowable host (.ofText name)) →
        (∃ fault, loadAll host .builtin (o.extensions.map Path.ofText) = .error fault) →
          (Invocation.runOptions host o input).exit = .ok 2 := by
  refine ⟨?_, ?_, ⟨_, textKeys_nestedName _, apply_nestedName host.room t⟩, ?_, ?_⟩
  · intro hshallow
    cases h : apply host.room t data with
    | ok extended => simp [textKeys_of_apply h]
    | error fault =>
      rw [← apply_eq_error h]
      constructor
      · rintro ⟨cause, rfl⟩
        exact Or.inr ⟨cause, rfl, isReported_of_apply hshallow h⟩
      · rintro (⟨_, ⟨⟩⟩ | ⟨cause, ⟨⟩, -⟩)
        exact ⟨cause, rfl⟩
  · intro hkeys
    cases h : apply host.room t data with
    | ok extended => exact Or.inl ⟨extended, rfl⟩
    | error fault =>
      obtain ⟨cause, rfl⟩ := (apply_eq_error h).2 hkeys
      by_cases hdeep : cause = .tooDeep
      · rw [hdeep]
        exact Or.inr (Or.inr rfl)
      · refine Or.inr (Or.inl ⟨cause, rfl, ?_⟩)
        cases cause with
        | tooDeep => exact absurd rfl hdeep
        | _ => rfl
  · intro path text hread hdata hshallow
    cases h : load host t path with
    | ok extended => simp [textKeys_of_load hread hdata h]
    | error fault => simp [← load_eq_error hread hdata hshallow h]
  · rintro o input hfiles ⟨fault, h⟩
    have hreported : fault.isReported = true := by
      refine loadAll_eq_error ?_ h
      intro path hpath
      obtain ⟨name, hname, rfl⟩ := List.mem_map.1 hpath
      exact hfiles name hname
    unfold Invocation.runOptions
    simp only [h, hreported, if_true]

/-- One key name, whose name is a list. -/
def listedName : Data := .record [("key_names", .list [.record [("name", .list [.str "x"])]])]

/-- Tells this data from all other. -/
def isListedName : Data → Bool
  | .map [(.str names, .list [.map [(.str name, .list [.str item])]])] =>
    names == "key_names" && name == "name" && item == "x"
  | _ => false

theorem eq_listedName {data : Data} (h : isListedName data = true) : data = listedName := by
  unfold isListedName at h
  split at h
  · rw [Bool.and_eq_true, Bool.and_eq_true, beq_iff_eq, beq_iff_eq, beq_iff_eq] at h
    obtain ⟨⟨rfl, rfl⟩, rfl⟩ := h
    rfl
  · cases h

/-- A name that is a list is shown, and reported. -/
theorem fault_reported_iff_listed_name :
    let host : Host := { read := fun _ => .ok "key_names:\n- name: [x]\n" }
    let path := Path.ofText "a.yaml"
    ∃ data, host.yaml.load "key_names:\n- name: [x]\n" = .ok data ∧ TextKeys data ∧
      AllShallow host.room data ∧
      (∃ fault, apply host.room .builtin data = .error (.config fault) ∧ fault.isReported = true) ∧
      (∃ fault, load host .builtin path = .error fault ∧ fault.isReported = true) ∧
      (Invocation.runOptions host { extensions := ["a.yaml"] } "").exit = .ok 2 := by
  intro host path
  let data := listedName
  have hread : (Yaml.read "key_names:\n- name: [x]\n").toOption.any isListedName = true := by
    decide +kernel
  have hdata : host.yaml.load "key_names:\n- name: [x]\n" = .ok data := by
    change Yaml.read "key_names:\n- name: [x]\n" = _
    generalize Yaml.read "key_names:\n- name: [x]\n" = value at hread ⊢
    cases value with
    | error fault => cases hread
    | ok found => rw [eq_listedName hread]
  have hkeys : TextKeys data := by
    rintro entries ⟨⟩ pair hpair
    rw [List.mem_singleton.1 hpair]
    rfl
  have hshallow : AllShallow host.room data := by
    intro name hname item hitem
    rcases List.mem_pair.1 hname with rfl | rfl
    · rw [List.mem_singleton.1 hitem]
      intro field
      cases field <;> decide
    · cases hitem
  obtain ⟨happly, -, -, hload, hexit⟩ := fault_reported_iff host .builtin data
  have hfails : (apply host.room .builtin data).isOk = false := rfl
  have hloads : (load host .builtin path).isOk = false := by decide +kernel
  have happlied : ¬∃ extended, apply host.room .builtin data = .ok extended := by
    rintro ⟨extended, h⟩
    rw [h] at hfails
    cases hfails
  have hloaded : ¬∃ extended, load host .builtin path = .ok extended := by
    rintro ⟨extended, h⟩
    rw [h] at hloads
    cases hloads
  obtain ⟨fault, hfault, hreported⟩ :=
    ((hload path _ rfl hdata hshallow).1 hkeys).resolve_left hloaded
  have hall : loadAll host .builtin [path] = .error fault := by
    unfold loadAll
    rw [List.foldlM_cons, hfault]
    rfl
  have hholds : ∀ name ∈ ["a.yaml"], HoldsShowable host (.ofText name) :=
    fun _ _ => ⟨_, data, rfl, hdata, hkeys, hshallow⟩
  exact ⟨data, hdata, hkeys, hshallow, ((happly hshallow).1 hkeys).resolve_left happlied,
    ⟨fault, hfault, hreported⟩, hexit { extensions := ["a.yaml"] } "" hholds ⟨fault, hall⟩⟩

/-- A section whose name is a number is neither applied nor reported, and the shell has no exit code. -/
theorem number_section_unreported :
    ¬((∃ extended, apply EntryField.standardRoom .builtin (.map [(.int 1, .str "x")]) = .ok extended) ∨
        ∃ fault, apply EntryField.standardRoom .builtin (.map [(.int 1, .str "x")]) =
          .error (.config fault)) ∧
      (Invocation.run { read := fun _ => .ok "1: x\n" } ["-e", "a.yaml"] "").exit.isOk = false := by
  constructor
  · have hnumber : ¬TextKeys (.map [(.int 1, .str "x")]) := by
      intro hkeys
      have hsome := hkeys _ rfl (.int 1, .str "x") (by simp)
      cases hsome
    rintro (⟨extended, h⟩ | ⟨fault, h⟩)
    · exact hnumber (textKeys_of_apply h)
    · exact hnumber ((apply_eq_error h).1 ⟨fault, rfl⟩)
  · decide +kernel

end Extension

end TrafficKey
