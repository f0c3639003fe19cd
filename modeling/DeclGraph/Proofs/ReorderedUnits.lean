import DeclGraph.Proofs.BuiltGraphs
import DeclGraph.Proofs.DirectGraphs
import DeclGraph.Proofs.ManifestBuilds
import DeclGraph.Proofs.ManifestWalks

/-!
Units of one manifest in two orders. They know the same ids and declare the same types, and the builder gives the same
results for each of them.
-/

namespace DeclGraph.Manifest

open Load

section Presence

variable {host : Host} {types : List Document} {loading : Loading}

theorem present_of_lists {ids : Ids} {value : Document} {links : List (Option TypeRef)} (lists : Lists ids value links) :
    ∀ reference ∈ refersIn value, Present ids reference :=
  present_of_stand lists

theorem present_of_takes {ids : Ids} {value : Document} {parameters : List Parameter}
    (takes : List.Forall₂ (Takes ids) (looped value) parameters) : ∀ reference ∈ parameterRefs value, Present ids reference := by
  intro reference among
  obtain ⟨entry, listed, inside⟩ := List.mem_flatMap.mp among
  obtain ⟨_, _, taken⟩ := exists_of_mem_left takes listed
  unfold Takes at taken
  split at taken
  · next entries mapping =>
    simp only [mapping, List.mem_cons, List.not_mem_nil, or_false] at inside
    rcases inside with rfl | rfl
    · exact taken.1.present
    · exact taken.2.present
  · next single =>
    simp only [single, List.mem_singleton] at inside
    subst inside
    exact taken.1.present

theorem exists_memberIs (reading : Reading host types loading) {entry : Document} (within : MemberWithin types entry) :
    ∃ depth owner index member, MemberIs loading depth owner entry index member := by
  obtain ⟨type, listed, among⟩ := within
  obtain ⟨_, _, _, _, _, _, are⟩ := (reading.read type listed).links .members
  obtain ⟨depth, each⟩ := are
  obtain ⟨index, inside⟩ := exists_mem_zipIdx among
  obtain ⟨_, _, member, _, is⟩ := exists_of_mem_left each inside
  exact ⟨depth, _, index, member, is⟩

theorem exists_methodIs (reading : Reading host types loading) {entry : Document} (within : MethodWithin types entry) :
    ∃ depth id ref, MethodIs loading depth entry id ref := by
  obtain ⟨member, memberWithin, kind, under⟩ := within
  induction under with
  | self =>
    obtain ⟨depth, owner, index, given, is⟩ := exists_memberIs reading memberWithin
    cases is with
    | method _ is => exact ⟨depth, _, _, is⟩
    | _ => simp_all
  | inner _ listed nests ih =>
    obtain ⟨_, _, _, is⟩ := ih
    obtain ⟨depth, symbol, _, looks⟩ := looks_of_is is
    obtain ⟨index, inside⟩ := exists_mem_zipIdx listed
    obtain ⟨_, _, kind, known, _, _, nested⟩ := exists_of_mem_left looks.body inside
    rw [if_pos ((nests_iff known).mp nests)] at nested
    obtain ⟨ref, _, is⟩ := nested
    exact ⟨depth, _, ref, is⟩

theorem present_of_headRefs (reading : Reading host types loading) {entry : Document} (listed : entry ∈ types) :
    ∀ reference ∈ headRefs entry, Present loading.ids reference := by
  intro reference among
  have links := (reading.read entry listed).links
  rcases mem_headRefs.mp among with rfl | interface | argument | mark
  · obtain ⟨_, _, _, _, _, _, is⟩ := links .base
    exact Stands.present is
  · obtain ⟨_, _, _, _, _, _, is⟩ := links .interfaces
    exact present_of_lists is _ interface
  · obtain ⟨_, _, _, _, _, _, is⟩ := links .typeArguments
    exact present_of_lists is _ argument
  · obtain ⟨_, _, _, _, _, _, is⟩ := links .attributes
    exact present_of_lists is _ mark

theorem present_of_attributes {depth index : Nat} {owner entry : Document} {member : Member}
    (is : MemberIs loading depth owner entry index member) :
    ∀ reference ∈ refersIn (entry.field "attributes"), Present loading.ids reference := by
  cases is with
  | field _ _ marked => exact present_of_lists marked
  | property _ _ _ marked => exact present_of_lists marked
  | event _ _ marked => exact present_of_lists marked
  | method _ is =>
    obtain ⟨_, _, _, looks⟩ := looks_of_is is
    exact present_of_lists looks.attributes
  | nested _ _ marked =>
    obtain ⟨_, lists⟩ := marked
    exact present_of_lists lists

theorem present_of_memberRefs {depth index : Nat} {owner entry : Document} {member : Member}
    (is : MemberIs loading depth owner entry index member) : ∀ reference ∈ memberRefs entry, Present loading.ids reference := by
  cases is with
  | field kind typed =>
    rw [memberRefs, kind]
    exact List.forall_mem_singleton.mpr typed.present
  | property kind typed takes =>
    rw [memberRefs, kind]
    exact List.forall_mem_cons.mpr ⟨typed.present, present_of_takes takes⟩
  | event kind typed =>
    rw [memberRefs, kind]
    exact List.forall_mem_singleton.mpr typed.present
  | method kind =>
    simp [memberRefs, kind]
  | nested kind typed =>
    rw [memberRefs, kind]
    exact List.forall_mem_singleton.mpr typed.present

theorem present_of_methodRefs {depth : Nat} {method id : Document} {ref : MethodRef} (is : MethodIs loading depth method id ref) :
    ∀ reference ∈ methodRefs method, Present loading.ids reference := by
  intro reference among
  obtain ⟨_, _, _, looks⟩ := looks_of_is is
  simp only [methodRefs, List.cons_append, List.mem_cons, List.mem_append, List.mem_map] at among
  rcases among with rfl | (parameter | mark) | ⟨entry, listed, rfl⟩
  · exact looks.returnType.present
  · exact present_of_takes looks.parameters _ parameter
  · exact present_of_lists looks.attributes _ mark
  · obtain ⟨index, there⟩ := exists_mem_zipIdx listed
    obtain ⟨_, _, _, _, _, stands, _⟩ := exists_of_mem_left looks.body there
    exact stands.present

theorem present_of_within (reading : Reading host types loading) {reference : Reference}
    (within : RefersWithin types reference) : Present loading.ids reference := by
  induction within with
  | head listed among => exact present_of_headRefs reading listed _ among
  | marked inside among =>
    obtain ⟨_, _, _, _, is⟩ := exists_memberIs reading inside
    exact present_of_attributes is _ among
  | member inside among =>
    obtain ⟨_, _, _, _, is⟩ := exists_memberIs reading inside
    exact present_of_memberRefs is _ among
  | method inside among =>
    obtain ⟨_, _, _, is⟩ := exists_methodIs reading inside
    exact present_of_methodRefs is _ among
  | constraint inside constraining among =>
    obtain ⟨⟨_, lists⟩, _⟩ := met_of_within reading inside constraining
    exact present_of_lists lists _ among
  | part _ listed ih => exact fun inner inside => ih inner (Reference.Inside.trans (.part .self listed) inside)

end Presence

section Looking

variable {α β : Type} {host : Host}

/-- An operation that looks at nothing but the path of the manifest: it gives the same from any table. -/
def PathOnly (op : Load α) : Prop := ∀ first second value after, second.path = first.path →
  op.run first = .ok (value, after) → first = after ∧ op.run second = .ok (value, second)

theorem pathOnly_pure (value : α) : PathOnly (pure value : Load α) := by
  intro first second result after _ ran
  obtain ⟨rfl, rfl⟩ := pure_run.mp ran
  exact ⟨rfl, pure_run.mpr ⟨rfl, rfl⟩⟩

theorem pathOnly_refuse {defect : Defect} : PathOnly (refuse defect : Load α) := fun _ _ _ _ _ ran => absurd ran refuse_run

theorem pathOnly_throw {fault : Fault} : PathOnly (throw fault : Load α) := fun _ _ _ _ _ ran => absurd ran throw_run

theorem pathOnly_bind {op : Load α} {next : α → Load β} (head : PathOnly op) (tail : ∀ value, PathOnly (next value)) :
    PathOnly (op >>= next) := by
  intro first second result after path ran
  obtain ⟨value, middle, start, rest⟩ := bind_run.mp ran
  obtain ⟨rfl, also⟩ := head first second value middle path start
  obtain ⟨rfl, last⟩ := tail value first second result after path rest
  exact ⟨rfl, bind_run.mpr ⟨value, second, also, last⟩⟩

theorem pathOnly_mapM {f : α → Load β} (each : ∀ value, PathOnly (f value)) (values : List α) : PathOnly (values.mapM f) := by
  induction values with
  | nil =>
    rw [List.mapM_nil]
    exact pathOnly_pure []
  | cons value rest ih =>
    rw [List.mapM_cons]
    exact pathOnly_bind (each value) fun _ => pathOnly_bind ih fun _ => pathOnly_pure _

theorem pathOnly_foldlM {f : β → α → Load β} (each : ∀ state value, PathOnly (f state value)) (values : List α) (start : β) :
    PathOnly (values.foldlM f start) := by
  induction values generalizing start with
  | nil =>
    rw [List.foldlM_nil]
    exact pathOnly_pure start
  | cons value rest ih =>
    rw [List.foldlM_cons]
    exact pathOnly_bind (each start value) fun next => ih next

theorem pathOnly_textOf (value : Document) : PathOnly (textOf value) := by
  intro first second text after _ ran
  obtain ⟨showable, shown, rfl⟩ := textOf_run.mp ran
  exact ⟨rfl, textOf_run.mpr ⟨showable, shown, rfl⟩⟩

theorem pathOnly_pathOf (value : Document) : PathOnly (pathOf host value) := by
  intro first second place after path ran
  obtain ⟨placed, rfl⟩ := pathOf_run.mp ran
  exact ⟨rfl, pathOf_run.mpr ⟨path ▸ placed, rfl⟩⟩

theorem pathOnly_loop (value : Document) : PathOnly (loop value) := by
  intro first second elements after _ ran
  obtain ⟨same, listed, rfl⟩ := loop_run.mp ran
  exact ⟨rfl, loop_run.mpr ⟨same, listed, rfl⟩⟩

theorem pathOnly_entriesOf (value : Document) : PathOnly (entriesOf value) := by
  unfold entriesOf
  split
  · exact pathOnly_pure _
  · split
    · exact pathOnly_pure _
    · exact pathOnly_throw

theorem pathOnly_listedDeclarations (value : Document) : PathOnly (listedDeclarations host value) := by
  refine pathOnly_bind (pathOnly_entriesOf value) fun entries => pathOnly_foldlM (fun rows entry => ?_) entries []
  split
  split
  · exact pathOnly_bind (pathOnly_mapM pathOnly_textOf _) fun _ => pathOnly_bind (pathOnly_pathOf _) fun _ => pathOnly_pure _
  · exact pathOnly_refuse

theorem pathOnly_markersOf (value : Document) : PathOnly (Load.markersOf host value) := by
  refine pathOnly_bind (pathOnly_entriesOf value) fun entries => pathOnly_foldlM (fun rows entry => ?_) entries []
  split
  exact pathOnly_bind (pathOnly_mapM pathOnly_textOf _) fun _ => pathOnly_bind (pathOnly_pathOf _) fun _ => pathOnly_pure _

theorem pathOnly_pathsIn (value : Document) : PathOnly (pathsIn host value) :=
  pathOnly_bind (pathOnly_loop value) fun _ => pathOnly_mapM pathOnly_pathOf _

theorem pathOnly_sourcesOf (files : Document) (rows : List (String × List Document)) :
    PathOnly (sourcesOf host files rows) := by
  unfold sourcesOf
  split
  · exact pathOnly_pure _
  · split
    · exact pathOnly_mapM pathOnly_pathOf _
    · exact pathOnly_throw

theorem PathOnly.again {op : Load α} (only : PathOnly op) {first second : Loading} (path : second.path = first.path) {value : α}
    (ran : op.run first = .ok (value, first)) : op.run second = .ok (value, second) :=
  (only first second value first path ran).2

end Looking

section Declaring

variable {host : Host} {types others : List Document} {first second loading : Loading}

theorem ownDeclarations_isOk {entries : List Document} (declared : ∀ entry ∈ entries, Declared host loading entry) :
    ∃ rows, (ownDeclarations entries).run loading = .ok (rows, loading) := by
  rw [ownDeclarations_eq]
  generalize ([] : List (String × List Document)) = start
  induction entries generalizing start with
  | nil => exact ⟨start, pure_run.mpr ⟨rfl, rfl⟩⟩
  | cons entry rest ih =>
    obtain ⟨key, ref, _, _, symbol, keyed, _, found, there, _⟩ := declared entry List.mem_cons_self
    obtain ⟨rows, later⟩ := ih (fun other among => declared other (List.mem_cons_of_mem _ among)) (withOwn start symbol)
    rw [List.foldlM_cons]
    exact ⟨rows, bind_run.mpr ⟨_, loading, addOwn_run.mpr ⟨key, ref, symbol, keyed, found, there, rfl, rfl⟩, later⟩⟩

theorem declaresIn_again (twins : Twins host types others first second) {entry id : Document} {file : String}
    (listed : entry ∈ types) (declares : DeclaresIn first entry file id) : ∃ other ∈ others, DeclaresIn second other file id := by
  obtain ⟨key, ref, symbol, keyed, found, there, text, internal, rfl⟩ := declares
  obtain ⟨other, also, alike⟩ := twins.same.there entry listed
  obtain ⟨_, otherRef, _, _, otherSymbol, otherKeyed, _, otherFound, otherThere, _⟩ := twins.two.declared other also
  have is := declaredAs_of_entry twins.one listed keyed found there
  have otherIs := declaredAs_of_entry twins.two also otherKeyed otherFound otherThere
  have matched : Matched host types others first second symbol otherSymbol := .declared listed also alike is otherIs
  refine ⟨other, also, _, otherRef, otherSymbol, otherKeyed, otherFound, otherThere, ?_, ?_, ?_⟩
  · rw [matched.file twins, text]
  · rw [otherIs.external, alike.fields "external" (by decide) (by decide), ← is.external, internal]
  · rw [otherIs.id, is.id, alike.fields "id" (by decide) (by decide)]

theorem own_again (twins : Twins host types others first second) {rows more : List (String × List Document)}
    (ran : (ownDeclarations types).run first = .ok (rows, first)) (also : (ownDeclarations others).run second = .ok (more, second))
    {file : String} {id : Document} (among : id ∈ (rows.lookup file).getD []) : id ∈ (more.lookup file).getD [] := by
  rcases (mem_own_iff ran file id).mp among with none | ⟨entry, listed, declares⟩
  · cases none
  · exact (mem_own_iff also file id).mpr (Or.inr (declaresIn_again twins listed declares))

theorem mem_files_of_lookup {α : Type} {rows : Rows (List α)} {file : String} {id : α}
    (among : id ∈ (rows.lookup file).getD []) : file ∈ rows.map (·.1) := by
  induction rows with
  | nil => cases among
  | cons row rest ih =>
    obtain ⟨other, ids⟩ := row
    rw [Rows.lookup_row] at among
    rw [List.map_cons, List.mem_cons]
    split at among
    · next same => exact Or.inl same
    · exact Or.inr (ih among)

theorem files_append {α : Type} (rows : Rows (List α)) (key : String) (value : α) (file : String) :
    file ∈ (rows.append key value).map (·.1) ↔ file ∈ rows.map (·.1) ∨ file = key := by
  induction rows with
  | nil => simp [Rows.append]
  | cons row rest ih =>
    obtain ⟨other, old⟩ := row
    rw [Rows.append]
    split
    · next same => simp [same, or_comm]
    · rw [List.map_cons, List.mem_cons, ih, List.map_cons, List.mem_cons, or_assoc]

theorem own_filled {entries : List Document} {rows : List (String × List Document)} {after : Loading}
    (ran : (ownDeclarations entries).run loading = .ok (rows, after)) :
    ∀ file ∈ rows.map (·.1), ∃ id, id ∈ (rows.lookup file).getD [] := by
  refine foldlM_looks (fun rows : List (String × List Document) =>
    ∀ file ∈ rows.map (·.1), ∃ id, id ∈ (rows.lookup file).getD []) still_addOwn ?_ (by simp) ran
  intro entry _ rows next filled ran
  obtain ⟨_, _, symbol, _, _, _, rfl, _⟩ := addOwn_run.mp ran
  unfold withOwn
  split
  · exact filled
  · next path _ =>
    split
    · exact filled
    · intro file listed
      rw [Rows.lookup_append]
      by_cases same : file = path
      · exact ⟨symbol.id, by simp [same]⟩
      · rw [if_neg same]
        exact filled file (((files_append rows path symbol.id file).mp listed).resolve_right same)

/-- Units that list and declare the same, with the same markup. -/
structure SameUnit (manifest other : ManifestUnit) : Prop where
  markup : other.markupFiles = manifest.markupFiles
  markers : other.markers = manifest.markers
  sources : ∀ file, file ∈ other.sourceFiles ↔ file ∈ manifest.sourceFiles
  declarations : ∀ file id, id ∈ (other.declarations.lookup file).getD [] ↔ id ∈ (manifest.declarations.lookup file).getD []

theorem SameUnit.symm {manifest other : ManifestUnit} (same : SameUnit manifest other) : SameUnit other manifest :=
  ⟨same.markup.symm, same.markers.symm, fun file => (same.sources file).symm, fun file id => (same.declarations file id).symm⟩

theorem declarations_again (twins : Twins host types others first second) {listed rows : List (String × List Document)}
    (ran : (declarationsOf types listed).run first = .ok (rows, first)) :
    ∃ more, (declarationsOf others listed).run second = .ok (more, second)
      ∧ (∀ file id, id ∈ (more.lookup file).getD [] ↔ id ∈ (rows.lookup file).getD [])
      ∧ ∀ file, file ∈ more.map (·.1) ↔ file ∈ rows.map (·.1) := by
  unfold declarationsOf at ran ⊢
  split at ran
  · next empty =>
    obtain ⟨more, also⟩ := ownDeclarations_isOk twins.two.declared
    rw [if_pos empty]
    refine ⟨more, also, fun file id => ⟨own_again twins.symm also ran, own_again twins ran also⟩, fun file =>
      ⟨fun among => ?_, fun among => ?_⟩⟩
    · obtain ⟨id, declares⟩ := own_filled also file among
      exact mem_files_of_lookup (own_again twins.symm also ran declares)
    · obtain ⟨id, declares⟩ := own_filled ran file among
      exact mem_files_of_lookup (own_again twins ran also declares)
  · next given =>
    obtain ⟨rfl, _⟩ := pure_run.mp ran
    rw [if_neg given]
    exact ⟨listed, pure_run.mpr ⟨rfl, rfl⟩, fun _ _ => Iff.rfl, fun _ => Iff.rfl⟩

theorem sources_again (path : second.path = first.path) {files : Document} {rows more : List (String × List Document)}
    {sources : List String} (same : ∀ file, file ∈ more.map (·.1) ↔ file ∈ rows.map (·.1))
    (ran : (sourcesOf host files rows).run first = .ok (sources, first)) :
    ∃ others, (sourcesOf host files more).run second = .ok (others, second) ∧ ∀ file, file ∈ others ↔ file ∈ sources := by
  by_cases null : files = .null
  · subst null
    obtain ⟨rfl, _⟩ := pure_run.mp (show (pure (rows.map (·.1)) : Load _).run first = _ from ran)
    exact ⟨_, show (pure (more.map (·.1)) : Load _).run second = _ from pure_run.mpr ⟨rfl, rfl⟩, same⟩
  · -- The rows do not count where the files are given.
    have given : sourcesOf host files more = sourcesOf host files rows := by
      unfold sourcesOf
      split
      · exact absurd rfl null
      · rfl
    exact ⟨sources, given ▸ (pathOnly_sourcesOf files rows).again path ran, fun _ => Iff.rfl⟩

theorem shown_again (twins : Twins host types others first second) {data otherData : Document} {manifest : ManifestUnit}
    {listed : List (String × List Document)} (fields : ∀ name, name ≠ "types" → otherData.field name = data.field name)
    (shown : Shown host types data first manifest listed) :
    ∃ other, Shown host others otherData second other listed ∧ SameUnit manifest other := by
  obtain ⟨declarations, declared, same, files⟩ := declarations_again twins shown.declarations
  obtain ⟨sources, found, sameSources⟩ := sources_again twins.path files shown.sources
  refine ⟨{ path := second.path, table := second.table, ids := second.ids, sourceFiles := sources
            markupFiles := manifest.markupFiles, markers := manifest.markers, declarations }, ?_,
    ⟨rfl, rfl, sameSources, same⟩⟩
  constructor
  · rw [fields "declarations" (by decide)]
    exact (pathOnly_listedDeclarations _).again twins.path shown.listed
  · exact declared
  · rw [fields "files" (by decide)]
    exact found
  · rw [fields "markup_files" (by decide)]
    exact (pathOnly_pathsIn _).again twins.path shown.markup
  · rw [fields "original_file_markers" (by decide)]
    exact (pathOnly_markersOf _).again twins.path shown.markers
  · rfl
  · rfl
  · rfl

end Declaring

section Building

variable {host : Host} {types others : List Document} {first second : Loading} {data otherData : Document}
variable {manifest other : ManifestUnit} {listed : List (String × List Document)} {builder : Builder}
variable {unit otherUnit : CompilationUnit} {tree otherTree : FileTree} {markup : FileSet}

theorem lookup_again (twins : Twins host types others first second) {key : Key} {ref : TypeRef} {symbol : TypeSymbol}
    (found : first.ids.lookup key = some ref) (there : first.table.types[ref]? = some symbol) (named : symbol.kind = .named)
    (internal : symbol.external.isSet = false) : ∃ otherRef otherSymbol, second.ids.lookup key = some otherRef
      ∧ second.table.types[otherRef]? = some otherSymbol ∧ otherSymbol.kind = .named ∧ otherSymbol.external.isSet = false := by
  have known : ∃ otherRef, second.ids.lookup key = some otherRef := by
    by_cases declared : ∃ entry ∈ types, (entry.field "id").key? = some key
    · obtain ⟨entry, listed, keyed⟩ := declared
      obtain ⟨other, also, alike⟩ := twins.same.there entry listed
      obtain ⟨otherKey, otherRef, _, _, _, otherKeyed, _, otherFound, _⟩ := twins.two.declared other also
      rw [alike.fields "id" (by decide) (by decide), keyed] at otherKeyed
      cases otherKeyed
      exact ⟨otherRef, otherFound⟩
    · obtain ⟨_, source⟩ := source_of_undeclared twins.one.good (fun entry listed keyed => declared ⟨entry, listed, keyed⟩) found there
      -- What is no declared type comes from outside, or it is built.
      cases source with
      | parameter _ _ hollow => exact absurd hollow (not_hollow named internal)
      | library _ hollow => exact absurd hollow (not_hollow named internal)
      | built within called _ _ =>
        exact present_of_within twins.two (twins.same.refersWithin within) _ .self _ called
  obtain ⟨otherRef, otherFound⟩ := known
  obtain ⟨otherSymbol, otherThere, _⟩ := twins.two.good.found otherFound
  refine ⟨otherRef, otherSymbol, otherFound, otherThere, ?_⟩
  cases matched_of_key twins found there otherFound otherThere with
  | declared _ _ alike is otherIs =>
    refine ⟨otherIs.kind, ?_⟩
    rw [otherIs.external, alike.fields "external" (by decide) (by decide), ← is.external, internal]
  | hollow _ _ hollow => exact absurd hollow (not_hollow named internal)
  | composed _ _ composed otherComposed =>
    refine ⟨otherComposed.kind.trans (composed.kind.symm.trans named), ?_⟩
    rw [otherComposed.external, ← composed.external, internal]

/-- The units of a manifest in two orders, in file trees with the same files. -/
structure Counterparts (host : Host) (builder : Builder) (manifest other : ManifestUnit) (unit otherUnit : CompilationUnit)
    (tree otherTree : FileTree) : Prop where
  uses : builder.frontend = frontend host
  handle : unit.handle = .manifest manifest
  otherHandle : otherUnit.handle = .manifest other
  same : SameUnit manifest other
  path : otherUnit.path = unit.path
  trees : ∀ place, otherTree.isFile place = tree.isFile place

theorem Counterparts.symm (parts : Counterparts host builder manifest other unit otherUnit tree otherTree) :
    Counterparts host builder other manifest otherUnit unit otherTree tree :=
  ⟨parts.uses, parts.otherHandle, parts.handle, parts.same.symm, parts.path.symm, fun place => (parts.trees place).symm⟩

theorem knownMarkup_alike (parts : Counterparts host builder manifest other unit otherUnit tree otherTree) :
    builder.knownMarkup host otherTree otherUnit = builder.knownMarkup host tree unit := by
  have files : otherTree.isFile = tree.isFile := funext parts.trees
  have asked : builder.frontend.markupFiles otherUnit = builder.frontend.markupFiles unit := by
    rw [parts.uses]
    show (do pure (← unitOf otherUnit).markupFiles) = (do pure (← unitOf unit).markupFiles)
    rw [unitOf_manifest parts.otherHandle, unitOf_manifest parts.handle]
    exact congrArg Except.ok parts.same.markup
  unfold Builder.knownMarkup Builder.existingMarkup
  rw [asked, files]

theorem resolve_alike (parts : Counterparts host builder manifest other unit otherUnit tree otherTree) (path : String) :
    (builder.inUnit host otherTree otherUnit markup).resolve path = (builder.inUnit host tree unit markup).resolve path := by
  have files : otherTree.isFile = tree.isFile := funext parts.trees
  have asked : builder.frontend.markers otherUnit path = builder.frontend.markers unit path := by
    rw [parts.uses]
    show (do Manifest.markersOf host (← unitOf otherUnit) (.text path)) = (do Manifest.markersOf host (← unitOf unit) (.text path))
    rw [unitOf_manifest parts.otherHandle, unitOf_manifest parts.handle]
    show Manifest.markersOf host other _ = Manifest.markersOf host manifest _
    simp only [Manifest.markersOf, parts.same.markers]
  have marked : (builder.inUnit host otherTree otherUnit markup).markedFile = (builder.inUnit host tree unit markup).markedFile := by
    funext directory marker
    simp only [Builder.Context.markedFile, files]
  simp only [Builder.Context.resolve, Builder.Context.markupSource, files, asked, marked, parts.path]

theorem declares_alike (parts : Counterparts host builder manifest other unit otherUnit tree otherTree)
    {declaration : TypeDeclaration} (declares : (builder.inUnit host tree unit markup).Declares manifest.sourceFiles declaration) :
    (builder.inUnit host otherTree otherUnit markup).Declares other.sourceFiles declaration := by
  obtain ⟨file, listed, present, id, among, rfl⟩ := (declares_iff parts.uses parts.handle).mp declares
  exact (declares_iff parts.uses parts.otherHandle).mpr
    ⟨file, (parts.same.sources file).mpr listed, present, id, (parts.same.declarations _ id).mpr among, rfl⟩

theorem standsFor_alike (parts : Counterparts host builder manifest other unit otherUnit tree otherTree) {value : Document}
    {file : String} : (builder.inUnit host otherTree otherUnit markup).StandsFor value file ↔
      (builder.inUnit host tree unit markup).StandsFor value file := by
  simp only [Builder.Context.StandsFor, resolve_alike parts]

theorem analysed_alike (twins : Twins host types others first second)
    (parts : Counterparts host builder manifest other unit otherUnit tree otherTree)
    (shown : Shown host types data first manifest listed) (otherShown : Shown host others otherData second other listed)
    {file place : String} {id : Document} {ref : TypeRef}
    (analysed : (builder.inUnit host tree unit markup).Analysed ⟨.text file, id, id⟩ ref place) :
    ∃ key otherRef, first.ids.lookup key = some ref ∧ second.ids.lookup key = some otherRef
      ∧ (builder.inUnit host otherTree otherUnit markup).Analysed ⟨.text file, id, id⟩ otherRef place := by
  obtain ⟨asked, stands⟩ := (analysed_iff parts.uses parts.handle).mp analysed
  obtain ⟨key, keyed, found, symbol, there, named, internal⟩ := declaredSymbol_eq_some.mp asked
  rw [shown.ids] at found
  rw [shown.table] at there
  obtain ⟨otherRef, otherSymbol, otherFound, otherThere, otherNamed, otherInternal⟩ :=
    lookup_again twins found there named internal
  refine ⟨key, otherRef, found, otherFound, (analysed_iff parts.uses parts.otherHandle).mpr ⟨?_, ?_⟩⟩
  · exact declaredSymbol_eq_some.mpr ⟨key, keyed, otherShown.ids ▸ otherFound, otherSymbol, otherShown.table ▸ otherThere,
      otherNamed, otherInternal⟩
  · exact (standsFor_alike parts).mpr stands

theorem dependency_texts {reported : SymbolTable.Reported} {context : Builder.Context} {dependency : String} :
    (∃ value ∈ reported, context.StandsFor value dependency) ↔
      ∃ path, .text path ∈ reported ∧ context.resolve path = .ok (some dependency) := by
  constructor
  · rintro ⟨_, among, path, rfl, resolved⟩
    exact ⟨path, among, resolved⟩
  · rintro ⟨path, among, resolved⟩
    exact ⟨.text path, among, path, rfl, resolved⟩

theorem gives_alike (twins : Twins host types others first second)
    (parts : Counterparts host builder manifest other unit otherUnit tree otherTree)
    (shown : Shown host types data first manifest listed) (otherShown : Shown host others otherData second other listed)
    {file : String} {id : Document} {result otherResult : FileDependencies}
    (gives : (builder.inUnit host tree unit markup).Gives ⟨.text file, id, id⟩ result)
    (also : (builder.inUnit host otherTree otherUnit markup).Gives ⟨.text file, id, id⟩ otherResult) :
    otherResult.file = result.file ∧ ∀ dependency, dependency ∈ otherResult.dependencies ↔ dependency ∈ result.dependencies := by
  obtain ⟨ref, reported, analysed, walked, members⟩ := gives
  obtain ⟨otherRef, otherReported, otherAnalysed, otherWalked, otherMembers⟩ := also
  obtain ⟨key, target, found, otherFound, again⟩ := analysed_alike twins parts shown otherShown analysed
  obtain ⟨rfl, file⟩ := Builder.Context.analysed_unique again otherAnalysed
  obtain ⟨_, _, ran, otherRan, _, _, same⟩ := dependencies_alike twins found otherFound
  rw [symbols_inUnit parts.uses parts.handle, shown.table, ran] at walked
  rw [symbols_inUnit parts.uses parts.otherHandle, otherShown.table, otherRan] at otherWalked
  cases walked
  cases otherWalked
  refine ⟨file.symm, fun dependency => ?_⟩
  simp only [members, otherMembers, dependency_texts, same, resolve_alike parts, file]

/-- Each result is among the others, with its dependencies in any order. -/
def Retold (results others : List FileDependencies) : Prop := ∀ result ∈ results, ∃ other ∈ others, other.file = result.file
  ∧ ∀ dependency, dependency ∈ other.dependencies ↔ dependency ∈ result.dependencies

theorem walks_of_twins (twins : Twins host types others first second) (shown : Shown host types data first manifest listed)
    (uses : builder.frontend = frontend host) (handle : unit.handle = .manifest manifest) {key : Key} {ref : TypeRef}
    (found : manifest.ids.lookup key = some ref) : (builder.inUnit host tree unit markup).Walks ref := by
  rw [shown.ids] at found
  obtain ⟨reported, expanded, ran, expands⟩ := dependencies_of_twins twins found
  exact ⟨reported, by rw [symbols_inUnit uses handle, shown.table, ran], paths_of_expands expands⟩

theorem retold_of_covers (twins : Twins host types others first second)
    (parts : Counterparts host builder manifest other unit otherUnit tree otherTree)
    (shown : Shown host types data first manifest listed) (otherShown : Shown host others otherData second other listed)
    {progress otherProgress : Builder.Context.Progress}
    (covers : (builder.inUnit host tree unit markup).Covers (builder.inUnit host tree unit markup).Gives
      ((builder.inUnit host tree unit markup).Declares manifest.sourceFiles) progress)
    (also : (builder.inUnit host otherTree otherUnit markup).Covers (builder.inUnit host otherTree otherUnit markup).Gives
      ((builder.inUnit host otherTree otherUnit markup).Declares other.sourceFiles) otherProgress) :
    Retold progress.results otherProgress.results := by
  intro result member
  obtain ⟨declaration, declares, gives⟩ := covers.sound result member
  have otherDeclares := declares_alike parts declares
  obtain ⟨file, _, _, id, _, rfl⟩ := (declares_iff parts.uses parts.handle).mp declares
  have ⟨_, _, analysed, _⟩ := gives
  obtain ⟨_, otherRef, _, _, again⟩ := analysed_alike twins parts shown otherShown analysed
  obtain ⟨otherResult, otherMember, _, otherGives⟩ := also.complete _ otherDeclares otherRef _ again
  exact ⟨otherResult, otherMember, gives_alike twins parts shown otherShown gives otherGives⟩

/-- The builder comes to the same results for both units, up to their order. -/
theorem results_alike (twins : Twins host types others first second)
    (parts : Counterparts host builder manifest other unit otherUnit tree otherTree)
    (shown : Shown host types data first manifest listed) (otherShown : Shown host others otherData second other listed)
    (named : unit.path ≠ "") : ∃ results otherResults, builder.resultsOf host tree unit = .ok results
      ∧ builder.resultsOf host otherTree otherUnit = .ok otherResults ∧ Retold results otherResults
      ∧ Retold otherResults results := by
  obtain ⟨markup, progress, known, ran, covers⟩ := resultsOf_manifest parts.uses twins.one.good shown parts.handle named tree
    fun _ _ _ found => walks_of_twins twins shown parts.uses parts.handle found
  obtain ⟨otherMarkup, otherProgress, otherKnown, otherRan, otherCovers⟩ := resultsOf_manifest parts.uses twins.two.good
    otherShown parts.otherHandle (parts.path ▸ named) otherTree
    fun _ _ _ found => walks_of_twins twins.symm otherShown parts.uses parts.otherHandle found
  rw [knownMarkup_alike parts, known] at otherKnown
  cases otherKnown
  exact ⟨_, _, ran, otherRan, retold_of_covers twins parts shown otherShown covers otherCovers,
    retold_of_covers twins.symm parts.symm otherShown shown otherCovers covers⟩

theorem cited_of_retold {results others : List FileDependencies} (retold : Retold results others) {file : String}
    (cited : Graph.Cited host results file) : Graph.Cited host others file := by
  obtain ⟨result, member, names⟩ := cited
  obtain ⟨other, among, same, dependencies⟩ := retold result member
  refine ⟨other, among, names.imp (fun named => same ▸ named) ?_⟩
  rintro ⟨dependency, listed, named⟩
  exact ⟨dependency, (dependencies dependency).mpr listed, named⟩

theorem told_of_retold {results others : List FileDependencies} (retold : Retold results others) {file next : String}
    (told : Graph.Told host results file next) : Graph.Told host others file next := by
  obtain ⟨different, result, member, named, dependency, listed, called⟩ := told
  obtain ⟨other, among, same, dependencies⟩ := retold result member
  exact ⟨different, other, among, same ▸ named, dependency, (dependencies dependency).mpr listed, called⟩

theorem spelled_of_resultsOf {results : List FileDependencies} (ran : builder.resultsOf host tree unit = .ok results) :
    Graph.Spelled results := by
  intro result member
  obtain ⟨own, dependencies⟩ := Builder.there_of_resultsOf ran result member
  exact ⟨(Host.locate_eq_ok.mp own.1).1, fun dependency listed => (Host.locate_eq_ok.mp (dependencies dependency listed).1).1⟩

theorem graphs_alike {results others : List FileDependencies} (spelled : Graph.Spelled results) (also : Graph.Spelled others)
    (there : Retold results others) (back : Retold others results) : ∃ graph other, Graph.ofDirect host results = .ok graph
      ∧ Graph.ofDirect host others = .ok other ∧ other.same graph = true := by
  obtain ⟨graph, made, _, shows⟩ := Graph.ofDirect_of_spelled host spelled
  obtain ⟨other, otherMade, _, otherShows⟩ := Graph.ofDirect_of_spelled host also
  exact ⟨graph, other, made, otherMade, Graph.same_of_shows otherShows shows
    (fun _ => ⟨cited_of_retold back, cited_of_retold there⟩) (fun _ _ => ⟨told_of_retold back, told_of_retold there⟩)⟩

end Building

end DeclGraph.Manifest
