import DeclGraph.Proofs.MemberDependencies

/-!
What a manifest files under its paths. The keys of `declarations` and `original_file_markers` are spellings, and
entries whose spellings lead to one path meet there: each replaces what was filed before it, so the last one counts.
Without listed declarations the types are filed under their own files, in their order.
-/

namespace DeclGraph.Manifest

open Load

def mapped (value : Document) : Entries := if value.isSet then value.entries?.getD [] else []

/-- The value of the last entry whose key spells a path. -/
def LastAt (host : Host) (manifest : String) (entries : Entries) (path : String) (value : Document) : Prop :=
  ∃ before name after, entries = before ++ (name, value) :: after ∧ placeOf? host manifest (.scalar name) = some path
    ∧ ∀ other ∈ after, placeOf? host manifest (.scalar other.1) ≠ some path

def listedIds (value : Document) : Option (List String) := value.items?.map (List.map Document.display)

/-- The markers that an entry lists; a single one needs no list. -/
def listedMarkers (value : Document) : Option (List String) := some ((value.items?.getD [value]).map Document.display)

def isDeclaredIn (host : Host) (manifest path : String) (entry : Document) : Bool :=
  !(entry.field "external").isSet && (entry.field "file").isSet
    && decide (placeOf? host manifest (entry.field "file") = some path)

/-- What is given for a path are the texts of the last entry for it. -/
structure FiledLast (host : Host) (manifest : String) (entries : Entries) (texts : Document → Option (List String))
    (Gives : String → List String → Prop) : Prop where
  placed : ∀ entry ∈ entries, ∃ path listed, placeOf? host manifest (.scalar entry.1) = some path
    ∧ texts entry.2 = some listed ∧ ∃ value, LastAt host manifest entries path value
  last : ∀ path value listed, LastAt host manifest entries path value → texts value = some listed → Gives path listed
  rest : ∀ path, host.locate path = .ok path →
    (∀ entry ∈ entries, placeOf? host manifest (.scalar entry.1) ≠ some path) → Gives path []

/-- What is given for a path are the types of the sources with this file, each once and in their order. -/
structure FiledByFile (host : Host) (manifest : String) (types : List Document) (Gives : String → List Document → Prop) :
    Prop where
  placed : ∀ entry ∈ types, (entry.field "external").isSet = false → (entry.field "file").isSet = true →
    ∃ path, isDeclaredIn host manifest path entry = true
  distinct : (types.map fun entry => (entry.field "id").key?).Nodup
  filed : ∀ path, host.locate path = .ok path →
    Gives path ((types.filter (isDeclaredIn host manifest path)).map fun entry => entry.field "id")

section Last

variable {host : Host} {manifest : String} {entries : Entries} {path : String}

theorem lastAt_cons {entry : Scalar × Document} {value : Document} :
    LastAt host manifest (entry :: entries) path value ↔ LastAt host manifest entries path value
      ∨ entry.2 = value ∧ placeOf? host manifest (.scalar entry.1) = some path
        ∧ ∀ other ∈ entries, placeOf? host manifest (.scalar other.1) ≠ some path := by
  constructor
  · rintro ⟨before, name, after, split, placed, later⟩
    cases before with
    | nil =>
      cases split
      exact Or.inr ⟨rfl, placed, later⟩
    | cons first more =>
      cases split
      exact Or.inl ⟨more, name, after, rfl, placed, later⟩
  · rintro (⟨before, name, after, rfl, placed, later⟩ | ⟨rfl, placed, later⟩)
    · exact ⟨entry :: before, name, after, rfl, placed, later⟩
    · exact ⟨[], entry.1, entries, rfl, placed, later⟩

theorem exists_lastAt (spelled : ∃ entry ∈ entries, placeOf? host manifest (.scalar entry.1) = some path) :
    ∃ value, LastAt host manifest entries path value := by
  induction entries with
  | nil =>
    obtain ⟨_, none, _⟩ := spelled
    cases none
  | cons entry rest ih =>
    by_cases later : ∃ other ∈ rest, placeOf? host manifest (.scalar other.1) = some path
    · obtain ⟨value, last⟩ := ih later
      exact ⟨value, lastAt_cons.mpr (Or.inl last)⟩
    · obtain ⟨found, among, placed⟩ := spelled
      rcases List.mem_cons.mp among with rfl | inside
      · exact ⟨found.2, lastAt_cons.mpr (Or.inr ⟨rfl, placed, fun other listed same => later ⟨other, listed, same⟩⟩)⟩
      · exact absurd ⟨found, inside, placed⟩ later

end Last

namespace Load

section Filing

variable {host : Host} {loading after : Loading}

theorem entriesOf_run {value : Document} {entries : Entries} :
    (entriesOf value).run loading = .ok (entries, after) ↔
      mapped value = entries ∧ (value.isSet = true → value.entries?.isSome = true) ∧ loading = after := by
  unfold entriesOf mapped
  cases value.isSet with
  | false => exact pure_run.trans (by simp)
  | true =>
    cases value.entries? with
    | none => exact ⟨fun ran => absurd ran throw_run, by simp⟩
    | some found => exact pure_run.trans (by simp)

theorem texts_run {values : List Document} {texts : List String}
    (ran : (values.mapM textOf).run loading = .ok (texts, after)) : texts = values.map Document.display ∧ loading = after := by
  induction values generalizing texts after with
  | nil =>
    rw [List.mapM_nil] at ran
    obtain ⟨rfl, same⟩ := pure_run.mp ran
    exact ⟨rfl, same⟩
  | cons value rest ih =>
    rw [List.mapM_cons] at ran
    obtain ⟨text, _, first, ran⟩ := bind_run.mp ran
    obtain ⟨_, rfl, rfl⟩ := textOf_run.mp first
    obtain ⟨others, _, later, ran⟩ := bind_run.mp ran
    obtain ⟨rfl, rfl⟩ := ih later
    obtain ⟨rfl, rfl⟩ := pure_run.mp ran
    exact ⟨rfl, rfl⟩

structure Files {β : Type} (host : Host) (loading : Loading) (read : Document → Option β)
    (step : Rows β → Scalar × Document → Load (Rows β)) : Prop where
  each : ∀ rows entry next after, (step rows entry).run loading = .ok (next, after) → ∃ path filed,
    placeOf? host loading.path (.scalar entry.1) = some path ∧ read entry.2 = some filed ∧ rows.set path filed = next
      ∧ loading = after

variable {β : Type} {read : Document → Option β} {step : Rows β → Scalar × Document → Load (Rows β)}

/-- Under each path stands what was filed last, or what stood there before. -/
theorem lookup_filed (files : Files host loading read step) {entries : Entries} {start final : Rows β}
    (ran : (entries.foldlM step start).run loading = .ok (final, after)) :
    (∀ entry ∈ entries, ∃ path filed, placeOf? host loading.path (.scalar entry.1) = some path ∧ read entry.2 = some filed)
      ∧ (∀ path value, LastAt host loading.path entries path value → final.lookup path = read value)
      ∧ ∀ path, (∀ entry ∈ entries, placeOf? host loading.path (.scalar entry.1) ≠ some path) →
        final.lookup path = start.lookup path := by
  induction entries generalizing start with
  | nil =>
    obtain ⟨rfl, _⟩ := pure_run.mp (show (pure start : Load _).run loading = _ from ran)
    refine ⟨by simp, ?_, fun _ _ => rfl⟩
    rintro path value ⟨before, name, after, split, _⟩
    exact absurd split (by simp)
  | cons entry rest ih =>
    rw [List.foldlM_cons] at ran
    obtain ⟨next, _, stepped, ran⟩ := bind_run.mp ran
    obtain ⟨place, filed, placed, found, rfl, rfl⟩ := files.each start entry next _ stepped
    obtain ⟨each, last, others⟩ := ih ran
    refine ⟨List.forall_mem_cons.mpr ⟨⟨place, filed, placed, found⟩, each⟩, ?_, ?_⟩
    · intro path value counts
      rcases lastAt_cons.mp counts with later | ⟨rfl, here, later⟩
      · exact last path value later
      · cases placed.symm.trans here
        rw [others place later, Rows.lookup_set, if_pos rfl, found]
    · intro path apart
      obtain ⟨elsewhere, later⟩ := List.forall_mem_cons.mp apart
      rw [others path later, Rows.lookup_set, if_neg]
      rintro rfl
      exact elsewhere placed

theorem files_declarations (host : Host) (loading : Loading) :
    Files host loading (fun value => value.items?.map (List.map fun id => .text id.display))
      (fun rows (entry : Scalar × Document) => do
        match entry.2.items? with
        | some ids =>
          let texts ← ids.mapM textOf
          let path ← pathOf host (.scalar entry.1)
          pure (Rows.set rows path (texts.map Document.text))
        | none => refuse (.declarationsNotList entry.1)) where
  each rows entry next after ran := by
    split at ran
    · next ids listed =>
      obtain ⟨texts, _, shown, ran⟩ := bind_run.mp ran
      obtain ⟨rfl, rfl⟩ := texts_run shown
      obtain ⟨path, _, spelled, ran⟩ := bind_run.mp ran
      obtain ⟨placed, rfl⟩ := pathOf_run.mp spelled
      obtain ⟨rfl, rfl⟩ := pure_run.mp ran
      exact ⟨path, _, placed, by rw [listed]; rfl, by rw [List.map_map]; rfl, rfl⟩
    · exact absurd ran refuse_run

theorem files_markers (host : Host) (loading : Loading) :
    Files host loading listedMarkers (fun rows (entry : Scalar × Document) => do
      let texts ← ((entry.2.items?).getD [entry.2]).mapM textOf
      let path ← pathOf host (.scalar entry.1)
      pure (Rows.set rows path texts)) where
  each rows entry next after ran := by
    obtain ⟨texts, _, shown, ran⟩ := bind_run.mp ran
    obtain ⟨rfl, rfl⟩ := texts_run shown
    obtain ⟨path, _, spelled, ran⟩ := bind_run.mp ran
    obtain ⟨placed, rfl⟩ := pathOf_run.mp spelled
    obtain ⟨rfl, rfl⟩ := pure_run.mp ran
    exact ⟨path, _, placed, rfl, rfl, rfl⟩

end Filing

end Load

section Units

variable {host : Host} {types : List Document} {data : Document} {loading : Loading} {manifest : ManifestUnit}
variable {listed : List (String × List Document)} {unit : CompilationUnit}

def Declares (host : Host) (unit : CompilationUnit) (path : String) (ids : List Document) : Prop :=
  (frontend host).declarations unit path = .ok (ids.map fun id => ⟨.text path, id, id⟩)

theorem declares_of_lookup (handle : unit.handle = .manifest manifest) {path : String} (settled : host.locate path = .ok path)
    {ids : List Document} (filed : (manifest.declarations.lookup path).getD [] = ids) : Declares host unit path ids := by
  obtain ⟨present, fixed⟩ := Host.locate_eq_ok.mp settled
  have asked : declarationsIn host manifest path = _ := declarationsIn_eq_ok present
  rw [fixed, filed] at asked
  exact bind_eq_ok.mpr ⟨manifest, unitOf_manifest handle, asked⟩

theorem markers_of_lookup (handle : unit.handle = .manifest manifest) {path : String} (settled : host.locate path = .ok path)
    {markers : List String} (filed : (manifest.markers.lookup path).getD [] = markers) :
    (frontend host).markers unit path = .ok markers := by
  have located : host.locateValue (.text path) = .ok path := settled
  have asked : Manifest.markersOf host manifest (.text path) = .ok markers := by
    rw [Manifest.markersOf, located]
    exact congrArg Except.ok filed
  exact bind_eq_ok.mpr ⟨manifest, unitOf_manifest handle, asked⟩

/-- What stands under each path after the entries were filed one by one is given there. -/
theorem filedLast_of_lookup {β : Type} {read : Document → Option β} {step : Rows β → Scalar × Document → Load (Rows β)}
    (write : List String → β) (files : Files host loading read step) {entries : Entries} {final : Rows β} {after : Loading}
    (ran : (entries.foldlM step []).run loading = .ok (final, after)) {texts : Document → Option (List String)}
    (reads : ∀ value, read value = (texts value).map write) {Gives : String → List String → Prop}
    (gives : ∀ path listed, host.locate path = .ok path →
      (final.lookup path = some (write listed) ∨ final.lookup path = none ∧ listed = []) → Gives path listed) :
    FiledLast host loading.path entries texts Gives := by
  obtain ⟨each, last, rest⟩ := lookup_filed files ran
  have settled {path : String} {value : Document} (counts : LastAt host loading.path entries path value) :
      host.locate path = .ok path := by
    obtain ⟨_, _, _, _, placed, _⟩ := counts
    exact locate_of_placeOf? placed
  refine ⟨fun entry among => ?_, fun path value listed counts told => ?_, fun path fixed apart => ?_⟩
  · obtain ⟨path, filed, placed, found⟩ := each entry among
    rw [reads, Option.map_eq_some_iff] at found
    obtain ⟨listed, told, _⟩ := found
    exact ⟨path, listed, placed, told, exists_lastAt ⟨entry, among, placed⟩⟩
  · refine gives path listed (settled counts) (Or.inl ?_)
    rw [last path value counts, reads, told]
    rfl
  · exact gives path [] fixed (Or.inr ⟨rest path apart, rfl⟩)

theorem ownId?_of_declared {entry : Document} (declared : Declared host loading entry) (path : String) :
    ownId? loading path entry = if isDeclaredIn host loading.path path entry then some (entry.field "id") else none := by
  obtain ⟨key, ref, _, file, symbol, keyed, located, found, there, frozen⟩ := declared
  have external : symbol.external.isSet = (entry.field "external").isSet := by
    rw [frozen.external]
    cases (entry.field "external").isSet <;> rfl
  rw [ownId?_of_found keyed found there, frozen.file, frozen.id, external]
  rcases located with ⟨fileless, rfl⟩ | ⟨given, place, placed, rfl⟩
  · have absent : isDeclaredIn host loading.path path entry = false := by simp [isDeclaredIn, fileless]
    rw [absent]
    rfl
  · have here : isDeclaredIn host loading.path path entry = true ↔
        (Document.text place).text? = some path ∧ (entry.field "external").isSet = false := by
      simp [isDeclaredIn, given, placed, and_comm, Document.text?]
    simp only [here]

theorem own_rows {entries : List Document} (declared : ∀ entry ∈ entries, Declared host loading entry)
    {start rows : Rows (List Document)} {after : Loading} (ran : (entries.foldlM addOwn start).run loading = .ok (rows, after))
    (path : String) : (rows.lookup path).getD [] = (start.lookup path).getD []
      ++ (entries.filter (isDeclaredIn host loading.path path)).map fun entry => entry.field "id" := by
  rw [own_appends ran, ← List.filterMap_eq_map, List.filterMap_filter]
  rw [List.filterMap_congr fun entry among => ownId?_of_declared (declared entry among) path]
  rfl

theorem listed_isEmpty {value : Document} {after : Loading}
    (ran : (listedDeclarations host value).run loading = .ok (listed, after)) : listed = [] ↔ mapped value = [] := by
  obtain ⟨entries, _, opened, ran⟩ := bind_run.mp ran
  obtain ⟨rfl, _, rfl⟩ := entriesOf_run.mp opened
  obtain ⟨each, last, _⟩ := lookup_filed (files_declarations host loading) ran
  constructor
  · intro bare
    rw [List.eq_nil_iff_forall_not_mem]
    intro entry among
    obtain ⟨path, filed, placed, _⟩ := each entry among
    obtain ⟨value, counts⟩ := exists_lastAt ⟨entry, among, placed⟩
    obtain ⟨before, name, later, split, _⟩ := id counts
    obtain ⟨_, also, _, found⟩ := each (name, value) (split ▸ List.mem_append_right before List.mem_cons_self)
    have none := last path value counts
    rw [bare, found] at none
    cases none
  · intro bare
    rw [bare] at ran
    exact (pure_run.mp (show (pure [] : Load (Rows (List Document))).run loading = _ from ran)).1.symm

theorem filedLast_declarations (shown : Shown host types data loading manifest listed) (handle : unit.handle = .manifest manifest)
    (explicit : mapped (data.field "declarations") ≠ []) :
    FiledLast host loading.path (mapped (data.field "declarations")) listedIds
      fun path ids => Declares host unit path (ids.map .text) := by
  have kept : manifest.declarations = listed := by
    have ran := shown.declarations
    have filled : listed.isEmpty = false := by
      rw [Bool.eq_false_iff, ne_eq, List.isEmpty_iff, listed_isEmpty shown.listed]
      exact explicit
    rw [declarationsOf, filled] at ran
    exact (pure_run.mp ran).1.symm
  obtain ⟨_, _, opened, ran⟩ := bind_run.mp shown.listed
  obtain ⟨rfl, _, rfl⟩ := entriesOf_run.mp opened
  refine filedLast_of_lookup (List.map .text) (files_declarations host loading) ran (fun value => ?_)
    fun path ids settled filed => ?_
  · rw [listedIds, Option.map_map]
    refine congrArg (value.items?.map ·) (funext fun ids => ?_)
    rw [Function.comp_apply, List.map_map]
    rfl
  · refine declares_of_lookup handle settled ?_
    rw [kept]
    rcases filed with found | ⟨none, rfl⟩
    · rw [found]
      rfl
    · rw [none]
      rfl

theorem filedLast_markers (shown : Shown host types data loading manifest listed) (handle : unit.handle = .manifest manifest) :
    FiledLast host loading.path (mapped (data.field "original_file_markers")) listedMarkers
      fun path markers => (frontend host).markers unit path = .ok markers := by
  obtain ⟨_, _, opened, ran⟩ := bind_run.mp shown.markers
  obtain ⟨rfl, _, rfl⟩ := entriesOf_run.mp opened
  refine filedLast_of_lookup id (files_markers host loading) ran (fun value => Option.map_id.symm ▸ rfl)
    fun path markers settled filed => ?_
  refine markers_of_lookup handle settled ?_
  rcases filed with found | ⟨none, rfl⟩
  · rw [found]
    rfl
  · rw [none]
    rfl

theorem filedByFile_types (reading : Reading host types loading)
    (apart : types.Pairwise fun entry other =>
      ∀ key, (entry.field "id").key? = some key → (other.field "id").key? ≠ some key)
    (shown : Shown host types data loading manifest listed) (handle : unit.handle = .manifest manifest)
    (implicit : mapped (data.field "declarations") = []) : FiledByFile host loading.path types (Declares host unit) where
  placed entry among internal given := by
    obtain ⟨_, _, _, file, _, _, located, _⟩ := reading.declared entry among
    rcases located with ⟨fileless, _⟩ | ⟨_, path, placed, _⟩
    · cases given.symm.trans fileless
    · exact ⟨path, by simp [isDeclaredIn, internal, given, placed]⟩
  distinct := by
    rw [List.nodup_iff_pairwise_ne, List.pairwise_map]
    refine List.Pairwise.imp_of_mem (fun {entry other} among _ differ same => ?_) apart
    obtain ⟨key, _, _, _, _, keyed, _⟩ := reading.declared entry among
    exact differ key keyed (same ▸ keyed)
  filed path settled := by
    have ran := shown.declarations
    rw [declarationsOf, (listed_isEmpty shown.listed).mpr implicit] at ran
    refine declares_of_lookup handle settled ?_
    exact (own_rows reading.declared ran path).trans (List.nil_append _)

/-- Filing. Of the entries of `declarations` whose keys lead to one path the last counts, and so it is with the markers
of generated files; what an earlier entry lists is given only as far as the last one lists it. Without listed
declarations each type of the sources is declared once, in its own file, in the order of the manifest. -/
theorem last_entries_are_filed {given : Document} {opening opened : World}
    (ran : (openUnit host given).outcome opening = (.ok unit, opened)) : ∃ data types,
      ReadFrom host given opening.tree data ∧ entriesIn data = some types
      ∧ (mapped (data.field "declarations") ≠ [] →
        FiledLast host unit.path (mapped (data.field "declarations")) listedIds
          fun path ids => Declares host unit path (ids.map .text))
      ∧ (mapped (data.field "declarations") = [] → FiledByFile host unit.path types (Declares host unit))
      ∧ FiledLast host unit.path (mapped (data.field "original_file_markers")) listedMarkers
        fun path markers => (frontend host).markers unit path = .ok markers := by
  obtain ⟨path, bytes, data, manifest, name, read, loaded, _, rfl, rfl⟩ := openUnit_eq_ok.mp ran
  obtain ⟨types, middle, loading, listed, entries, entered, linked, shown⟩ := load_eq_ok.mp loaded
  obtain ⟨reading, rfl⟩ := types_reading entered linked
  obtain ⟨_, _, _, apart⟩ := declareTypes_steps (good_start loading.path) (fun _ among => among) entered
  exact ⟨data, types, ⟨_, bytes, read⟩, entries, filedLast_declarations shown rfl, filedByFile_types reading apart shown rfl,
    filedLast_markers shown rfl⟩

end Units

section Sample

/-- Two types, which are declared under these spellings. -/
def filing (first second : String) : Document :=
  .object [("types", .list [typeEntry "A" "a.cs" [], typeEntry "B" "b.cs" []]),
    ("declarations", .object [(first, .texts ["A"]), (second, .texts ["B"])])]

theorem plain_filing {first second : String} (apart : first ≠ second) : Json.Plain (filing first second) := by
  have types : ∀ entry ∈ [typeEntry "A" "a.cs" [], typeEntry "B" "b.cs" []], Json.Plain entry := by
    simp [plain_typeEntry]
  have declarations : Json.Plain (.object [(first, .texts ["A"]), (second, .texts ["B"])]) :=
    .object (by simpa using apart) (by simp [Json.plain_texts])
  exact .object (by simp) (by simp [Json.Plain.list types, declarations])

theorem mapped_filing (first second : String) : mapped ((filing first second).field "declarations") =
    [(.text first, .texts ["A"]), (.text second, .texts ["B"])] := rfl

/-- Entries for different files are given whole. -/
theorem last_entries_are_filed_apart : ∃ unit,
    (openUnit Saved.sampleHost (.text "u.json")).outcome (writtenWorld (filing "a.cs" "./b.cs")) =
        (.ok unit, writtenWorld (filing "a.cs" "./b.cs"))
      ∧ Declares Saved.sampleHost unit "/w/a.cs" [.text "A"] ∧ Declares Saved.sampleHost unit "/w/b.cs" [.text "B"] := by
  obtain ⟨manifest, loaded⟩ : ∃ manifest, loadWritten (filing "a.cs" "./b.cs") = .ok manifest :=
    exists_loadWritten (by decide +kernel)
  have plain : Json.Plain (filing "a.cs" "./b.cs") := plain_filing (by decide)
  have opens := openUnit_written plain rfl rfl loaded
  obtain ⟨data, types, read, _, explicit, _, _⟩ := last_entries_are_filed opens
  obtain rfl := read.unique ⟨_, _, storedAt_written plain rfl⟩
  rw [mapped_filing] at explicit
  have filed := (explicit (by simp)).last
  have first : placeOf? Saved.sampleHost "/w/u.json" (.text "a.cs") = some "/w/a.cs" := by decide +kernel
  have second : placeOf? Saved.sampleHost "/w/u.json" (.text "./b.cs") = some "/w/b.cs" := by decide +kernel
  refine ⟨_, opens, filed "/w/a.cs" _ ["A"] ⟨[], _, _, rfl, first, ?_⟩ rfl,
    filed "/w/b.cs" _ ["B"] ⟨[_], _, [], rfl, second, by simp⟩ rfl⟩
  intro other among
  obtain rfl := List.mem_singleton.mp among
  rw [second]
  decide

/-- Two spellings of one file: what is listed under the first is not declared. -/
theorem earlier_declarations_are_lost : ∃ unit,
    (openUnit Saved.sampleHost (.text "u.json")).outcome (writtenWorld (filing "a.cs" "./a.cs")) =
        (.ok unit, writtenWorld (filing "a.cs" "./a.cs"))
      ∧ (.text "a.cs", .texts ["A"]) ∈ mapped ((filing "a.cs" "./a.cs").field "declarations")
      ∧ placeOf? Saved.sampleHost unit.path (.text "a.cs") = some "/w/a.cs"
      ∧ ∃ declarations, (frontend Saved.sampleHost).declarations unit "/w/a.cs" = .ok declarations
        ∧ ∀ declaration ∈ declarations, declaration.handle ≠ .text "A" := by
  obtain ⟨manifest, loaded⟩ : ∃ manifest, loadWritten (filing "a.cs" "./a.cs") = .ok manifest :=
    exists_loadWritten (by decide +kernel)
  have opens := openUnit_written (plain_filing (by decide)) rfl rfl loaded
  have filed := holds_of_loadWritten (fun manifest =>
    ((manifest.declarations.lookup "/w/a.cs").getD []).all (·.text? = some "B") = true) loaded (by decide +kernel)
  have placed : placeOf? Saved.sampleHost "/w/u.json" (.text "a.cs") = some "/w/a.cs" := by decide +kernel
  refine ⟨_, opens, List.mem_cons_self, placed, _, declares_of_lookup rfl (locate_of_placeOf? placed) rfl, ?_⟩
  intro declaration among named
  obtain ⟨id, listed, rfl⟩ := List.mem_map.mp among
  have last := of_decide_eq_true (List.all_eq_true.mp filed id listed)
  rw [show id = .text "A" from named] at last
  exact absurd last (by decide)

end Sample

end DeclGraph.Manifest
