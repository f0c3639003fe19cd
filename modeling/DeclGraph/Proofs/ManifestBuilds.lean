import DeclGraph.Manifest.Frontend
import DeclGraph.Proofs.CachedGraphs
import DeclGraph.Proofs.DirectDependencies
import DeclGraph.Proofs.ManifestTable

/-!
A run of the builder over the unit of a manifest. It comes to results when the ids of members and methods can name
something, and each declared type gives one of them.
-/

namespace DeclGraph

theorem Document.text?_eq_some {value : Document} {text : String} : value.text? = some text ↔ value = .text text := by
  constructor
  · intro given
    unfold Document.text? at given
    split at given
    · next other => simpa using given
    · cases given
  · rintro rfl
    rfl

namespace Rows

variable {α : Type}

theorem lookup_row (rest : Rows α) (name other : String) (value : α) :
    List.lookup other ((name, value) :: rest) = if other = name then some value else rest.lookup other := by
  rw [List.lookup_cons]
  by_cases same : other = name
  · rw [if_pos same, show (other == name) = true by simpa using same]
  · rw [if_neg same, show (other == name) = false by simpa using same]

theorem lookup_set (rows : Rows α) (key other : String) (value : α) :
    (rows.set key value).lookup other = if other = key then some value else rows.lookup other := by
  induction rows with
  | nil => rw [set, lookup_row]
  | cons row rest ih =>
    obtain ⟨first, old⟩ := row
    rw [set]
    by_cases here : first = key
    · subst here
      rw [if_pos rfl, lookup_row, lookup_row]
      by_cases same : other = first
      · rw [if_pos same, if_pos same]
      · rw [if_neg same, if_neg same, if_neg same]
    · rw [if_neg here, lookup_row, lookup_row, ih]
      by_cases same : other = key
      · subst same
        rw [if_neg (Ne.symm here), if_pos rfl, if_pos rfl]
      · rw [if_neg same, if_neg same]

theorem lookup_append (rows : Rows (List α)) (key other : String) (value : α) : (rows.append key value).lookup other =
    if other = key then some ((rows.lookup key).getD [] ++ [value]) else rows.lookup other := by
  induction rows with
  | nil =>
    rw [append, lookup_row]
    rfl
  | cons row rest ih =>
    obtain ⟨first, old⟩ := row
    rw [append]
    by_cases here : first = key
    · subst here
      rw [if_pos rfl, lookup_row, lookup_row, lookup_row, if_pos rfl]
      by_cases same : other = first
      · rw [if_pos same, if_pos same]
        rfl
      · rw [if_neg same, if_neg same, if_neg same]
    · rw [if_neg here, lookup_row, lookup_row, lookup_row, ih, if_neg (Ne.symm here)]
      by_cases same : other = key
      · subst same
        rw [if_neg (Ne.symm here), if_pos rfl, if_pos rfl]
      · rw [if_neg same, if_neg same]

end Rows

namespace Manifest

open Load

section Declarations

variable {host : Host} {types : List Document} {data : Document} {loading : Loading} {manifest : ManifestUnit}
variable {listed : List (String × List Document)}

theorem foldlM_looks {α β : Type} (kept : β → Prop) {f : β → α → Load β} {values : List α} {start final : β}
    (still : ∀ state value, Still (f state value))
    (each : ∀ value ∈ values, ∀ state next, kept state → (f state value).run loading = .ok (next, loading) → kept next)
    (first : kept start) {after : Loading} (ran : (values.foldlM f start).run loading = .ok (final, after)) : kept final := by
  induction values generalizing start with
  | nil =>
    obtain ⟨rfl, _⟩ := pure_run.mp (show (pure start : Load β).run loading = _ from ran)
    exact first
  | cons value rest ih =>
    rw [List.foldlM_cons] at ran
    obtain ⟨next, _, stepped, ran⟩ := bind_run.mp ran
    obtain rfl := still start value _ _ _ stepped
    exact ih (fun other among => each other (List.mem_cons_of_mem _ among))
      (each value List.mem_cons_self start next first stepped) ran

theorem listed_keeps (kept : Rows (List Document) → Prop) {value : Document} {after : Loading} (bare : kept [])
    (each : ∀ rows name path (texts : List String), (pathOf host name).run loading = .ok (path, loading) → kept rows →
      kept (Rows.set rows path (texts.map Document.text)))
    (ran : (listedDeclarations host value).run loading = .ok (listed, after)) : kept listed := by
  obtain ⟨entries, _, opened, ran⟩ := bind_run.mp ran
  obtain rfl := still_entriesOf value _ _ _ opened
  refine foldlM_looks kept ?_ ?_ bare ran
  · intro rows entry
    split
    split
    · exact still_bind (still_mapM still_textOf _) fun _ => still_bind (still_pathOf host _) fun _ => still_pure _
    · exact still_refuse
  · rintro ⟨name, ids⟩ _ rows next holds ran
    dsimp only at ran
    split at ran
    · obtain ⟨texts, _, shown, ran⟩ := bind_run.mp ran
      obtain rfl := still_mapM still_textOf _ _ _ _ shown
      obtain ⟨path, _, placed, ran⟩ := bind_run.mp ran
      obtain rfl := still_pathOf host _ _ _ _ placed
      obtain ⟨rfl, _⟩ := pure_run.mp ran
      exact each rows _ path texts placed holds
    · exact absurd ran refuse_run

theorem listed_texts {value : Document} {after : Loading} (ran : (listedDeclarations host value).run loading = .ok (listed, after)) :
    ∀ file ids, listed.lookup file = some ids → ∀ id ∈ ids, ∃ text, id = .text text := by
  refine listed_keeps (fun rows => ∀ file ids, rows.lookup file = some ids → ∀ id ∈ ids, ∃ text, id = .text text) (by simp)
    (fun rows _ path shown _ texts file ids found id among => ?_) ran
  rw [Rows.lookup_set] at found
  split at found
  · cases found
    obtain ⟨text, _, rfl⟩ := List.mem_map.mp among
    exact ⟨text, rfl⟩
  · exact texts file ids found id among

def DeclaresIn (loading : Loading) (entry : Document) (file : String) (id : Document) : Prop :=
  ∃ key ref symbol, (entry.field "id").key? = some key ∧ loading.ids.lookup key = some ref
    ∧ loading.table.types[ref]? = some symbol ∧ symbol.file = .text file ∧ symbol.external.isSet = false ∧ symbol.id = id

def ownId? (loading : Loading) (file : String) (entry : Document) : Option Document := do
  let key ← (entry.field "id").key?
  let ref ← loading.ids.lookup key
  let symbol ← loading.table.types[ref]?
  if symbol.file.text? = some file ∧ symbol.external.isSet = false then some symbol.id else none

theorem ownId?_of_found {entry : Document} {key : Key} {ref : TypeRef} {symbol : TypeSymbol}
    (keyed : (entry.field "id").key? = some key) (found : loading.ids.lookup key = some ref)
    (there : loading.table.types[ref]? = some symbol) (file : String) : ownId? loading file entry =
      if symbol.file.text? = some file ∧ symbol.external.isSet = false then some symbol.id else none := by
  simp [ownId?, keyed, found, there]

theorem ownId?_eq_some {entry id : Document} {file : String} :
    ownId? loading file entry = some id ↔ DeclaresIn loading entry file id := by
  simp only [ownId?, Option.bind_eq_bind, Option.bind_eq_some_iff, Option.ite_none_right_eq_some, Option.some.injEq,
    Document.text?_eq_some, DeclaresIn, and_assoc, exists_and_left]

theorem lookup_withOwn (rows : Rows (List Document)) (symbol : TypeSymbol) (file : String) :
    ((withOwn rows symbol).lookup file).getD [] = (rows.lookup file).getD []
      ++ (if symbol.file.text? = some file ∧ symbol.external.isSet = false then some symbol.id else none).toList := by
  unfold withOwn
  split
  · next fileless => simp [fileless]
  · next path text =>
    split
    · next external => simp [external]
    · next internal =>
      rw [Rows.lookup_append, text]
      by_cases same : file = path
      · simp [same, internal]
      · simp [same, Ne.symm same]

/-- The declarations that follow from the types, in the order of the types. -/
theorem own_appends {entries : List Document} {start rows : Rows (List Document)} {after : Loading}
    (ran : (entries.foldlM addOwn start).run loading = .ok (rows, after)) (file : String) :
    (rows.lookup file).getD [] = (start.lookup file).getD [] ++ entries.filterMap (ownId? loading file) := by
  induction entries generalizing start with
  | nil =>
    obtain ⟨rfl, _⟩ := pure_run.mp (show (pure start : Load _).run loading = _ from ran)
    simp
  | cons entry rest ih =>
    rw [List.foldlM_cons] at ran
    obtain ⟨next, _, stepped, ran⟩ := bind_run.mp ran
    obtain ⟨key, ref, symbol, keyed, found, there, rfl, rfl⟩ := addOwn_run.mp stepped
    rw [ih ran, lookup_withOwn, List.append_assoc, List.filterMap_cons, ownId?_of_found keyed found there]
    split <;> simp [*]

theorem mem_own_iff {entries : List Document} {start rows : Rows (List Document)} {after : Loading}
    (ran : (entries.foldlM addOwn start).run loading = .ok (rows, after)) (file : String) (id : Document) :
    id ∈ (rows.lookup file).getD [] ↔ id ∈ (start.lookup file).getD [] ∨ ∃ entry ∈ entries, DeclaresIn loading entry file id := by
  simp only [own_appends ran, List.mem_append, List.mem_filterMap, ownId?_eq_some]

theorem declared_keyed (good : Good host types loading) (shown : Shown host types data loading manifest listed)
    {file : String} {id : Document} (among : id ∈ (manifest.declarations.lookup file).getD []) :
    ∃ key, id.key? = some key := by
  have ran := shown.declarations
  unfold declarationsOf at ran
  split at ran
  · rcases (mem_own_iff ran file id).mp among with none | ⟨entry, _, _, ref, symbol, _, _, there, _, _, rfl⟩
    · cases none
    · obtain ⟨key, keyed, _⟩ := good.lookup_of_found there
      exact ⟨key, keyed⟩
  · obtain ⟨same, _⟩ := pure_run.mp ran
    rw [← same] at among
    cases found : listed.lookup file with
    | none => simp [found] at among
    | some ids =>
      rw [found] at among
      obtain ⟨text, rfl⟩ := listed_texts shown.listed file ids found id among
      exact ⟨.text text, rfl⟩

end Declarations

section Building

variable {host : Host} {types : List Document} {data : Document} {loading : Loading} {manifest : ManifestUnit}
variable {listed : List (String × List Document)} {unit : CompilationUnit}

theorem unitOf_manifest (handle : unit.handle = .manifest manifest) : unitOf unit = .ok manifest := by
  rw [unitOf, handle]

theorem declarationsIn_eq_ok {file : String} (present : file ≠ "") : declarationsIn host manifest file =
    .ok (((manifest.declarations.lookup (host.canonical file)).getD []).map fun id => ⟨.text file, id, id⟩) := by
  have located : host.locateValue (.text file) = .ok (host.canonical file) := Host.locate_eq_ok.mpr ⟨present, rfl⟩
  rw [declarationsIn, idsIn, located]
  rfl

theorem serves_of_shown (good : Good host types loading) (shown : Shown host types data loading manifest listed)
    (handle : unit.handle = .manifest manifest) (named : unit.path ≠ "") :
    Builder.Context.Serves (frontend host) unit manifest.sourceFiles where
  unitPath := named
  markers path present := by
    have located : host.locateValue (.text path) = .ok (host.canonical path) := Host.locate_eq_ok.mpr ⟨present, rfl⟩
    have asked : Manifest.markersOf host manifest (.text path) =
        .ok ((manifest.markers.lookup (host.canonical path)).getD []) := by
      rw [Manifest.markersOf, located]
      rfl
    exact ⟨_, bind_eq_ok.mpr ⟨manifest, unitOf_manifest handle, asked⟩⟩
  declarations file _ present :=
    ⟨_, bind_eq_ok.mpr ⟨manifest, unitOf_manifest handle, declarationsIn_eq_ok present⟩⟩
  symbols file _ found given declaration among := by
    obtain ⟨other, same, given⟩ := bind_eq_ok.mp given
    cases (unitOf_manifest handle).symm.trans same
    by_cases present : file = ""
    · subst present
      cases given
    · cases (declarationsIn_eq_ok present).symm.trans given
      obtain ⟨id, inside, rfl⟩ := List.mem_map.mp among
      obtain ⟨key, keyed⟩ := declared_keyed good shown inside
      obtain ⟨symbol, asked⟩ : ∃ symbol, declaredSymbol manifest id = .ok symbol := by
        rw [declaredSymbol, keyed]
        exact ⟨_, rfl⟩
      exact ⟨⟨symbol, bind_eq_ok.mpr ⟨manifest, unitOf_manifest handle, asked⟩⟩, file, rfl, present⟩

theorem knownMarkup_isOk {builder : Builder} (uses : builder.frontend = frontend host) (handle : unit.handle = .manifest manifest)
    (tree : FileTree) : ∃ markup, builder.knownMarkup host tree unit = .ok markup := by
  unfold Builder.knownMarkup
  cases builder.markupFiles with
  | some files => exact ⟨files, rfl⟩
  | none =>
    have asked : builder.frontend.markupFiles unit = .ok manifest.markupFiles := by
      rw [uses]
      exact bind_eq_ok.mpr ⟨manifest, unitOf_manifest handle, rfl⟩
    rw [asked]
    exact ⟨_, rfl⟩

theorem declaredSymbol_eq_some {id : Document} {ref : TypeRef} : declaredSymbol manifest id = .ok (some ref) ↔
    ∃ key, id.key? = some key ∧ manifest.ids.lookup key = some ref
      ∧ ∃ symbol, manifest.table.types[ref]? = some symbol ∧ symbol.kind = .named ∧ symbol.external.isSet = false := by
  unfold declaredSymbol
  cases id.key? with
  | none => simp
  | some key =>
    simp only [Except.ok.injEq, Option.filter_eq_some_iff, Option.some.injEq, exists_eq_left']
    refine and_congr_right fun _ => ?_
    cases manifest.table.types[ref]? with
    | none => simp
    | some symbol => simp

theorem symbols_manifest (handle : unit.handle = .manifest manifest) : (frontend host).symbols unit = manifest.table := by
  show ((unitOf unit).toOption.map (·.table)).getD {} = manifest.table
  rw [unitOf_manifest handle]
  rfl

section Asked

variable {builder : Builder} {tree : FileTree} {markup : FileSet}

theorem declares_iff (uses : builder.frontend = frontend host) (handle : unit.handle = .manifest manifest)
    {declaration : TypeDeclaration} : (builder.inUnit host tree unit markup).Declares manifest.sourceFiles declaration ↔
      ∃ file ∈ manifest.sourceFiles, file ≠ "" ∧ ∃ id ∈ (manifest.declarations.lookup (host.canonical file)).getD [],
        declaration = ⟨.text file, id, id⟩ := by
  have asked {file : String} (present : file ≠ "") : builder.frontend.declarations unit file =
      .ok (((manifest.declarations.lookup (host.canonical file)).getD []).map fun id => ⟨.text file, id, id⟩) := by
    rw [uses]
    exact bind_eq_ok.mpr ⟨manifest, unitOf_manifest handle, declarationsIn_eq_ok present⟩
  constructor
  · rintro ⟨file, listed, present, declarations, given, among⟩
    cases (asked present).symm.trans given
    obtain ⟨id, inside, rfl⟩ := List.mem_map.mp among
    exact ⟨file, listed, present, id, inside, rfl⟩
  · rintro ⟨file, listed, present, id, inside, rfl⟩
    exact ⟨file, listed, present, _, asked present, List.mem_map_of_mem inside⟩

theorem analysed_iff (uses : builder.frontend = frontend host) (handle : unit.handle = .manifest manifest)
    {file place : String} {id : Document} {ref : TypeRef} :
    (builder.inUnit host tree unit markup).Analysed ⟨.text file, id, id⟩ ref place ↔
      declaredSymbol manifest id = .ok (some ref)
        ∧ (builder.inUnit host tree unit markup).StandsFor (.text file) place := by
  have asked : builder.frontend.symbolOf unit ⟨.text file, id, id⟩ = declaredSymbol manifest id := by
    rw [uses]
    show (unitOf unit >>= fun manifest => declaredSymbol manifest id) = _
    rw [unitOf_manifest handle]
    rfl
  exact and_congr_left' (by rw [← asked])

theorem symbols_inUnit (uses : builder.frontend = frontend host) (handle : unit.handle = .manifest manifest) :
    (builder.inUnit host tree unit markup).symbols = manifest.table := by
  rw [Builder.Context.symbols, uses, symbols_manifest handle]

end Asked

theorem paths_of_expands {table : SymbolTable} {unmarked : List Mark} {agenda : List Visit} {reported : SymbolTable.Reported}
    {expanded : List Visit} (expands : table.Expands unmarked agenda [] reported expanded) :
    ∀ value ∈ reported, ∃ path, value = .text path ∧ path ≠ "" := by
  intro value among
  obtain ⟨path, rfl⟩ := expands.texts value among
  refine ⟨path, rfl, ?_⟩
  rcases (expands.files path).mp among with none | ⟨visit, _, gives⟩
  · cases none
  · cases visit with
    | type target =>
      obtain ⟨_, _, _, _, present⟩ := SymbolTable.typeFile_eq_some.mp gives
      exact present
    | _ => cases gives

/-- A unit comes to results when each type that it knows has dependencies, one for each declared type that is known and
whose file exists. -/
theorem resultsOf_manifest {builder : Builder} (uses : builder.frontend = frontend host) (good : Good host types loading)
    (shown : Shown host types data loading manifest listed) (handle : unit.handle = .manifest manifest)
    (named : unit.path ≠ "") (tree : FileTree)
    (walks : ∀ markup key ref, manifest.ids.lookup key = some ref → (builder.inUnit host tree unit markup).Walks ref) :
    ∃ markup progress, builder.knownMarkup host tree unit = .ok markup
      ∧ builder.resultsOf host tree unit = .ok progress.results
      ∧ (builder.inUnit host tree unit markup).Covers (builder.inUnit host tree unit markup).Gives
        ((builder.inUnit host tree unit markup).Declares manifest.sourceFiles) progress := by
  obtain ⟨markup, known⟩ := knownMarkup_isOk uses handle tree
  have serves : Builder.Context.Serves builder.frontend unit manifest.sourceFiles := by
    rw [uses]
    exact serves_of_shown good shown handle named
  have runs : ∃ progress, (builder.inUnit host tree unit markup).analyze manifest.sourceFiles = .ok progress := by
    refine Builder.Context.analyze_isOk serves fun declaration declares ref place analysed => ?_
    obtain ⟨file, _, _, id, _, rfl⟩ := (declares_iff uses handle).mp declares
    obtain ⟨asked, _⟩ := (analysed_iff uses handle).mp analysed
    obtain ⟨key, _, found, _⟩ := declaredSymbol_eq_some.mp asked
    exact walks markup key ref found
  obtain ⟨progress, ran⟩ := runs
  have sources : builder.frontend.sourceFiles unit = .ok manifest.sourceFiles := by
    rw [uses]
    exact bind_eq_ok.mpr ⟨manifest, unitOf_manifest handle, rfl⟩
  have results : builder.resultsOf host tree unit = .ok progress.results :=
    bind_eq_ok.mpr ⟨markup, known, bind_eq_ok.mpr ⟨_, sources, bind_eq_ok.mpr ⟨progress, ran, rfl⟩⟩⟩
  exact ⟨markup, progress, known, results, Builder.Context.gives_analyze ran⟩

/-- A unit whose members and methods have ids that can name something comes to results, one for each declared type that
is known and whose file exists. -/
theorem directDependencies_manifest {builder : Builder} (uses : builder.frontend = frontend host) (good : Good host types loading)
    (shown : Shown host types data loading manifest listed) (handle : unit.handle = .manifest manifest)
    (named : unit.path ≠ "") (nameable : Nameable manifest.table) (thread : String) (world : World) :
    ∃ markup progress calls journal, builder.knownMarkup host world.tree unit = .ok markup
      ∧ (builder.directDependencies host thread unit).outcome world =
        (.ok progress.results, { world with calls, journal })
      ∧ (builder.inUnit host world.tree unit markup).Covers (builder.inUnit host world.tree unit markup).Gives
        ((builder.inUnit host world.tree unit markup).Declares manifest.sourceFiles) progress := by
  have walkable : manifest.table.Walkable := by
    rw [shown.table] at nameable ⊢
    exact walkable_of_good good nameable
  obtain ⟨markup, progress, known, results, covers⟩ :=
    resultsOf_manifest uses good shown handle named world.tree fun markup key ref found => by
      obtain ⟨reported, expanded, ran, expands⟩ := SymbolTable.dependencies_expands walkable ref
      exact ⟨reported, by rw [symbols_inUnit uses handle, ran], paths_of_expands expands⟩
  obtain ⟨calls, journal, outcome⟩ := Builder.directDependencies_outcome builder host thread unit world
  rw [results] at outcome
  exact ⟨markup, progress, calls, journal, known, outcome, covers⟩

end Building

section Opening

variable {host : Host} {given data : Document} {tree : FileTree} {path : String} {bytes : ByteArray}

/-- A manifest lies in the file tree. -/
structure StoredAt (host : Host) (given : Document) (tree : FileTree) (path : String) (bytes : ByteArray) (data : Document) :
    Prop where
  located : host.locateValue given = .ok path
  looked : tree.look path = .ok (.file bytes)
  parsed : documentOf given path bytes >>= mappingOf given = .ok data

def ReadFrom (host : Host) (given : Document) (tree : FileTree) (data : Document) : Prop :=
  ∃ path bytes, StoredAt host given tree path bytes data

theorem StoredAt.path_ne_empty (stored : StoredAt host given tree path bytes data) : path ≠ "" := by
  obtain ⟨spelling, _, _, rfl⟩ := Host.locateValue_eq_ok stored.located
  exact Saved.canonical_ne_empty host spelling

theorem StoredAt.unique {otherPath : String} {otherBytes : ByteArray} {other : Document}
    (stored : StoredAt host given tree path bytes data) (also : StoredAt host given tree otherPath otherBytes other) :
    path = otherPath ∧ bytes = otherBytes ∧ data = other := by
  cases stored.located.symm.trans also.located
  cases stored.looked.symm.trans also.looked
  exact ⟨rfl, rfl, Except.ok.inj (stored.parsed.symm.trans also.parsed)⟩

theorem ReadFrom.unique {other : Document} (read : ReadFrom host given tree data) (also : ReadFrom host given tree other) :
    data = other := by
  obtain ⟨_, _, stored⟩ := read
  obtain ⟨_, _, otherStored⟩ := also
  exact (stored.unique otherStored).2.2

theorem outcome_openUnit {opening : World} (located : host.locateValue given = .ok path)
    (looked : opening.tree.look path = .ok (.file bytes)) :
    (openUnit host given).outcome opening = (do
      let data ← documentOf given path bytes >>= mappingOf given
      let manifest ← load host path (bytes.size + 1) data
      let name ← unitName path (data.field "name")
      pure ⟨path, name, .manifest manifest⟩, opening) := by
  have there : opening.tree.isFile path = true := FileTree.isFile_iff.mpr ⟨bytes, looked⟩
  have content : opening.tree.read path = .ok bytes := bind_eq_ok.mpr ⟨_, looked, rfl⟩
  simp only [openUnit, Run.outcome_bind, Run.outcome_ofExcept, located, Run.outcome_tree, there, Bool.not_true,
    Bool.false_eq_true, if_false, Run.outcome_onTree, content]
  cases documentOf given path bytes >>= mappingOf given with
  | error fault => rfl
  | ok data =>
    simp only [bind, Except.bind]
    cases load host path (bytes.size + 1) data with
    | error fault => rfl
    | ok manifest =>
      dsimp only
      cases unitName path (data.field "name") with
      | error fault => rfl
      | ok name => rfl

theorem looked_of_openUnit {opening opened : World} {unit : CompilationUnit}
    (ran : (openUnit host given).outcome opening = (.ok unit, opened)) :
    ∃ path bytes, host.locateValue given = .ok path ∧ opening.tree.look path = .ok (.file bytes) := by
  unfold openUnit at ran
  rw [Run.outcome_bind, Run.outcome_ofExcept] at ran
  cases located : host.locateValue given with
  | error fault =>
    rw [located] at ran
    cases ran
  | ok path =>
    rw [located] at ran
    by_cases there : opening.tree.isFile path = true
    · obtain ⟨bytes, looked⟩ := FileTree.isFile_iff.mp there
      exact ⟨path, bytes, rfl, looked⟩
    · simp only [Run.outcome_bind, Run.outcome_tree, there, Bool.not_false, if_true, Run.outcome_throw] at ran
      cases ran

/-- A unit that is opened holds what its manifest says, and nothing in the world changes. -/
theorem openUnit_eq_ok {opening opened : World} {unit : CompilationUnit} :
    (openUnit host given).outcome opening = (.ok unit, opened) ↔ ∃ path bytes data manifest name,
      StoredAt host given opening.tree path bytes data ∧ load host path (bytes.size + 1) data = .ok manifest
        ∧ unitName path (data.field "name") = .ok name ∧ unit = ⟨path, name, .manifest manifest⟩ ∧ opened = opening := by
  constructor
  · intro ran
    obtain ⟨path, bytes, located, looked⟩ := looked_of_openUnit ran
    rw [outcome_openUnit located looked, Prod.mk.injEq] at ran
    obtain ⟨ran, rfl⟩ := ran
    obtain ⟨data, parsed, ran⟩ := bind_eq_ok.mp ran
    obtain ⟨manifest, loaded, ran⟩ := bind_eq_ok.mp ran
    obtain ⟨name, named, ran⟩ := bind_eq_ok.mp ran
    cases ran
    exact ⟨path, bytes, data, manifest, name, ⟨located, looked, parsed⟩, loaded, named, rfl, rfl⟩
  · rintro ⟨path, bytes, data, manifest, name, ⟨located, looked, parsed⟩, loaded, named, rfl, rfl⟩
    rw [outcome_openUnit located looked, Prod.mk.injEq]
    exact ⟨bind_eq_ok.mpr ⟨data, parsed, bind_eq_ok.mpr ⟨manifest, loaded, bind_eq_ok.mpr ⟨name, named, rfl⟩⟩⟩, rfl⟩

theorem documentOf_written (plain : Json.Plain data) (json : ".json".toList.isSuffixOf path.toList = true)
    (mapping : data.entries?.isSome = true) :
    documentOf given path (Json.write .plain data).toUTF8 >>= mappingOf given = .ok data := by
  have unbroken : '\r' ∉ (Json.write .plain data).toList := by
    rw [Json.write, String.toList_ofList]
    exact Json.no_return_chars plain 0
  refine bind_eq_ok.mpr ⟨data, ?_, ?_⟩
  · rw [documentOf, if_pos json, jsonDocument, Text.ofBytes_toUTF8 unbroken]
    dsimp only
    rw [Json.parse_write plain]
  · have present : data.isNull = false := by
      cases data with
      | scalar => cases mapping
      | _ => rfl
    rw [mappingOf, present, mapping]
    rfl

end Opening

end Manifest

end DeclGraph
