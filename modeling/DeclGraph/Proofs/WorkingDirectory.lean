import DeclGraph.Proofs.AbsolutePaths
import DeclGraph.Proofs.ManifestBuilds
import DeclGraph.Proofs.VisitParts

/-!
A service does the same in any working directory, as long as its root and its manifests are named by absolute paths.
Everything that it makes out of them is absolute again: the files of a manifest, the files that a unit gives, the
graph, and the place where the graph is kept.
-/

namespace DeclGraph

open DeclGraph.Path (isAbsolute)
open DeclGraph.Host (NotRelative canonical_of_absolute locate_of_absolute locateValue_of_notRelative absolute_of_locate)

variable {host other : Host}

namespace Rows

variable {α : Type}

theorem key_of_mem_set {rows : Rows α} {key : String} {value : α} {row : String × α} (member : row ∈ rows.set key value) :
    row.1 = key ∨ ∃ old ∈ rows, row.1 = old.1 := by
  induction rows with
  | nil => simp_all [set]
  | cons first rest ih =>
    rw [set] at member
    split at member
    · grind
    · grind

theorem key_of_mem_append {rows : Rows (List α)} {key : String} {value : α} {row : String × List α}
    (member : row ∈ rows.append key value) : row.1 = key ∨ ∃ old ∈ rows, row.1 = old.1 := by
  induction rows with
  | nil => simp_all [append]
  | cons first rest ih =>
    rw [append] at member
    split at member
    · grind
    · grind

end Rows

namespace Manifest

open Load

section Files

variable {types : List Document} {data : Document} {loading after : Loading} {manifest : ManifestUnit}
variable {listed : List (String × List Document)}

theorem absolute_of_pathOf {value : Document} {path : String}
    (ran : (pathOf host value).run loading = .ok (path, after)) : isAbsolute path = true :=
  absolute_of_locate (locate_of_placeOf? (pathOf_run.mp ran).1)

theorem absolute_of_mapM_pathOf {values : List Document} {paths : List String}
    (ran : (values.mapM (pathOf host)).run loading = .ok (paths, after)) : ∀ path ∈ paths, isAbsolute path = true := by
  induction values generalizing paths loading after with
  | nil =>
    cases ran
    exact fun _ member => nomatch member
  | cons value rest ih =>
    rw [List.mapM_cons] at ran
    obtain ⟨path, _, first, ran⟩ := bind_run.mp ran
    obtain ⟨others, _, later, ran⟩ := bind_run.mp ran
    obtain ⟨rfl, _⟩ := pure_run.mp ran
    exact List.forall_mem_cons.mpr ⟨absolute_of_pathOf first, ih later⟩

theorem absolute_of_listed {value : Document}
    (ran : (listedDeclarations host value).run loading = .ok (listed, after)) : ∀ row ∈ listed, isAbsolute row.1 = true := by
  refine listed_keeps (fun rows => ∀ row ∈ rows, isAbsolute row.1 = true) (by simp)
    (fun rows _ path _ placed absolute row member => ?_) ran
  rcases Rows.key_of_mem_set member with new | ⟨old, before, same⟩
  · exact new ▸ absolute_of_pathOf placed
  · exact same ▸ absolute old before

theorem absolute_of_own (good : Good host types loading) {entries : List Document}
    (ran : (ownDeclarations entries).run loading = .ok (listed, after)) : ∀ row ∈ listed, isAbsolute row.1 = true := by
  refine foldlM_looks (fun rows : List (String × List Document) => ∀ row ∈ rows, isAbsolute row.1 = true) still_addOwn ?_
    (by simp) ran
  intro entry _ rows next absolute ran
  obtain ⟨_, _, symbol, _, _, there, rfl, _⟩ := addOwn_run.mp ran
  unfold withOwn
  split
  · exact absolute
  · next path text =>
    split
    · exact absolute
    · intro row member
      rcases Rows.key_of_mem_append member with new | ⟨old, before, same⟩
      · rcases plainFile good there with none | ⟨place, given, located⟩
        · rw [none] at text
          cases text
        · rw [given] at text
          cases text
          exact new ▸ absolute_of_locate located
      · exact same ▸ absolute old before

/-- A unit that names no file by a relative path. -/
structure Rooted (manifest : ManifestUnit) : Prop where
  sources : ∀ file ∈ manifest.sourceFiles, isAbsolute file = true
  markup : ∀ file ∈ manifest.markupFiles, isAbsolute file = true
  symbols : ∀ ref, NotRelative (manifest.table.definitionFile ref)

theorem rooted_of_shown (good : Good host types loading) (shown : Shown host types data loading manifest listed) :
    Rooted manifest where
  sources := by
    have declared : ∀ row ∈ manifest.declarations, isAbsolute row.1 = true := by
      have ran := shown.declarations
      unfold declarationsOf at ran
      split at ran
      · exact absolute_of_own good ran
      · obtain ⟨same, _⟩ := pure_run.mp ran
        exact same ▸ absolute_of_listed shown.listed
    have ran := shown.sources
    unfold sourcesOf at ran
    split at ran
    · obtain ⟨same, _⟩ := pure_run.mp ran
      rw [← same]
      exact List.forall_mem_map.mpr declared
    · split at ran
      · exact absolute_of_mapM_pathOf ran
      · exact absurd ran throw_run
  markup := by
    obtain ⟨elements, _, _, ran⟩ := bind_run.mp shown.markup
    exact absolute_of_mapM_pathOf ran
  symbols ref := by
    rw [shown.table]
    rcases plain_definitionFile good ref with none | ⟨path, given, located⟩
    · rw [none]
      exact fun _ given => nomatch given
    · rw [given]
      exact Host.notRelative_text (absolute_of_locate located)

end Files

end Manifest

section Congruence

variable {ε α β : Type}

theorem bind_congr_ok {first second : Except ε α} {next later : α → Except ε β} (head : first = second)
    (tail : ∀ value, first = .ok value → next value = later value) : first >>= next = second >>= later := by
  subst head
  cases first with
  | error fault => rfl
  | ok value => exact tail value rfl

theorem foldlM_congr {step also : β → α → Except ε β} {values : List α}
    (each : ∀ value ∈ values, ∀ state, step state value = also state value) (start : β) :
    values.foldlM step start = values.foldlM also start := by
  induction values generalizing start with
  | nil => rfl
  | cons value rest ih =>
    rw [List.foldlM_cons, List.foldlM_cons]
    refine bind_congr_ok (each value List.mem_cons_self start) fun next _ => ?_
    exact ih (fun other listed => each other (List.mem_cons_of_mem _ listed)) next

theorem mapM_congr_mem {step also : α → Except ε β} {values : List α} (each : ∀ value ∈ values, step value = also value) :
    values.mapM step = values.mapM also := by
  induction values with
  | nil => rfl
  | cons value rest ih =>
    rw [List.mapM_cons, List.mapM_cons, each value List.mem_cons_self,
      ih fun other listed => each other (List.mem_cons_of_mem _ listed)]

theorem Run.outcome_bind_congr {first second : Run α} {next later : α → Run β} {world : World}
    (head : first.outcome world = second.outcome world)
    (tail : ∀ value after, first.outcome world = (.ok value, after) →
      (next value).outcome after = (later value).outcome after) :
    (first >>= next).outcome world = (second >>= later).outcome world := by
  rw [Run.outcome_bind, Run.outcome_bind, ← head]
  rcases ran : first.outcome world with ⟨fault | value, after⟩
  · rfl
  · exact tail value after ran

theorem Run.outcome_mapM_congr {step also : α → Run β} {values : List α}
    (each : ∀ value ∈ values, ∀ world, (step value).outcome world = (also value).outcome world) (world : World) :
    (values.mapM step).outcome world = (values.mapM also).outcome world := by
  induction values generalizing world with
  | nil => rfl
  | cons value rest ih =>
    rw [List.mapM_cons, List.mapM_cons]
    refine Run.outcome_bind_congr (each value List.mem_cons_self world) fun _ after _ => ?_
    exact Run.outcome_bind_congr (ih (fun other listed => each other (List.mem_cons_of_mem _ listed)) after)
      fun _ _ _ => rfl

theorem Run.forall_of_mapM {holds : β → Prop} {step : α → Run β} {values : List α} {results : List β} {world after : World}
    (each : ∀ value ∈ values, ∀ world result after, (step value).outcome world = (.ok result, after) → holds result)
    (ran : (values.mapM step).outcome world = (.ok results, after)) : ∀ result ∈ results, holds result := by
  induction values generalizing world results with
  | nil =>
    cases ran
    exact fun _ member => nomatch member
  | cons value rest ih =>
    rw [List.mapM_cons] at ran
    obtain ⟨first, middle, head, ran⟩ := Run.outcome_bind_eq_ok.mp ran
    obtain ⟨others, last, later, same⟩ := Run.outcome_bind_eq_ok.mp ran
    cases same
    have held := each value List.mem_cons_self world first middle head
    exact List.forall_mem_cons.mpr ⟨held, ih (fun other listed => each other (List.mem_cons_of_mem _ listed)) later⟩

end Congruence

namespace Builder

def reading (host : Host) (extensions : List String) : Builder := ⟨Manifest.frontend host, extensions, none⟩

namespace Context

def under (host : Host) (extensions : List String) (tree : FileTree) (unit : CompilationUnit) (markup : FileSet) : Context :=
  ⟨reading host extensions, host, tree, unit, markup⟩

section Analysing

variable {extensions : List String} {tree : FileTree} {unit : CompilationUnit} {markup : FileSet}
variable {manifest : ManifestUnit}
variable (agreed : host.foldsCase = other.foldsCase)
include agreed

theorem markedFile_congr {directory : String} (rooted : isAbsolute directory = true) (marker : String) :
    (under host extensions tree unit markup).markedFile directory marker
      = (under other extensions tree unit markup).markedFile directory marker := by
  rw [markedFile, markedFile]
  have same := canonical_of_absolute agreed (Path.isAbsolute_joinTo rooted marker)
  simp only [under, hasMarkupExtension, same]
  rfl

theorem markers_congr {path : String} (rooted : isAbsolute path = true) :
    (Manifest.frontend host).markers unit path = (Manifest.frontend other).markers unit path := by
  refine bind_congr_ok rfl fun manifest _ => ?_
  rw [Manifest.markersOf, Manifest.markersOf, locateValue_of_notRelative agreed (Host.notRelative_text rooted)]

theorem declarations_congr {path : String} (rooted : isAbsolute path = true) :
    (Manifest.frontend host).declarations unit path = (Manifest.frontend other).declarations unit path := by
  refine bind_congr_ok rfl fun manifest _ => ?_
  rw [Manifest.declarationsIn, Manifest.declarationsIn, Manifest.idsIn, Manifest.idsIn,
    locateValue_of_notRelative agreed (Host.notRelative_text rooted)]

variable (place : isAbsolute unit.path = true)
include place

theorem markupSource_congr {path : String} (rooted : isAbsolute path = true) :
    (under host extensions tree unit markup).markupSource path
      = (under other extensions tree unit markup).markupSource path := by
  refine bind_congr_ok (locate_of_absolute agreed place) fun unitPath located => ?_
  refine bind_congr_ok (markers_congr agreed rooted) fun markers _ => ?_
  have directory := Path.isAbsolute_directory (absolute_of_locate located)
  exact congrArg (fun find => pure (markers.findSome? find)) (funext fun marker => markedFile_congr agreed directory marker)

theorem resolve_congr {path : String} (rooted : isAbsolute path = true) :
    (under host extensions tree unit markup).resolve path = (under other extensions tree unit markup).resolve path := by
  refine bind_congr_ok (locate_of_absolute agreed rooted) fun file _ => ?_
  rw [markupSource_congr agreed place rooted]
  rfl

theorem resolveValue_congr (cache : PathCache) {value : Document} (rooted : NotRelative value) :
    (under host extensions tree unit markup).resolveValue cache value
      = (under other extensions tree unit markup).resolveValue cache value := by
  unfold resolveValue
  split
  · next path =>
    unfold resolveCached
    rw [resolve_congr agreed place (rooted path rfl)]
  · split
    · rfl
    · exact bind_congr_ok (locateValue_of_notRelative agreed rooted) fun _ _ => rfl

theorem resolveAll_congr (file : String) (cache : PathCache) {values : List Document}
    (rooted : ∀ value ∈ values, NotRelative value) :
    (under host extensions tree unit markup).resolveAll file cache values
      = (under other extensions tree unit markup).resolveAll file cache values := by
  induction values generalizing cache with
  | nil => rw [resolveAll, resolveAll]
  | cons value rest ih =>
    obtain ⟨first, later⟩ := List.forall_mem_cons.mp rooted
    rw [resolveAll, resolveAll, resolveValue_congr agreed place cache first]
    refine bind_congr_ok rfl fun found _ => ?_
    obtain ⟨source, next⟩ := found
    dsimp only
    rw [ih next later]

variable (handle : unit.handle = .manifest manifest) (files : Manifest.Rooted manifest)
include handle files

theorem analyzeDeclaration_congr (cache : PathCache) {declaration : TypeDeclaration}
    (rooted : NotRelative declaration.file) :
    (under host extensions tree unit markup).analyzeDeclaration cache declaration
      = (under other extensions tree unit markup).analyzeDeclaration cache declaration := by
  have symbols (host : Host) : (under host extensions tree unit markup).builder.frontend.symbols
      (under host extensions tree unit markup).unit = manifest.table := by
    simp [under, reading, Manifest.frontend, Manifest.unitOf, handle, Except.toOption]
  rw [analyzeDeclaration, analyzeDeclaration, symbols, symbols]
  refine bind_congr_ok rfl fun symbol _ => ?_
  cases symbol with
  | none => rfl
  | some ref =>
    dsimp only
    refine bind_congr_ok (resolveValue_congr agreed place cache rooted) fun source _ => ?_
    obtain ⟨found, next⟩ := source
    cases found with
    | none => rfl
    | some file =>
      dsimp only
      refine bind_congr_ok rfl fun reported ran => ?_
      have all : ∀ value ∈ reported, NotRelative value := by
        intro value member
        obtain ⟨visit, contributed⟩ := SymbolTable.reported_of_dependencies ran member
        obtain ⟨ref, rfl, _⟩ := SymbolTable.definitionFile_of_fileOf contributed
        exact files.symbols ref
      rw [resolveAll_congr agreed place file next all, symbol?, symbol?, symbols, symbols]

theorem addFile_congr {file : String} (rooted : isAbsolute file = true) (progress : Progress) :
    (under host extensions tree unit markup).addFile progress file
      = (under other extensions tree unit markup).addFile progress file := by
  unfold addFile
  split
  · rfl
  · refine bind_congr_ok (declarations_congr agreed rooted) fun declarations listed => ?_
    refine foldlM_congr (fun declaration member state => ?_) progress
    have named : NotRelative declaration.file := by
      obtain ⟨_, _, listed⟩ := bind_eq_ok.mp listed
      obtain ⟨ids, _, same⟩ := bind_eq_ok.mp listed
      cases same
      obtain ⟨id, _, rfl⟩ := List.mem_map.mp member
      exact Host.notRelative_text rooted
    exact bind_congr_ok (analyzeDeclaration_congr agreed place handle files state.cache named) fun _ _ => rfl

theorem analyze_congr {sources : List String} (rooted : ∀ file ∈ sources, isAbsolute file = true) :
    (under host extensions tree unit markup).analyze sources = (under other extensions tree unit markup).analyze sources :=
  foldlM_congr (fun file listed progress => addFile_congr agreed place handle files (rooted file listed) progress) {}

end Analysing

end Context

/-- A unit of a manifest that names no file by a relative path. -/
structure RootedUnit (unit : CompilationUnit) : Prop where
  place : isAbsolute unit.path = true
  manifest : ∃ manifest, unit.handle = .manifest manifest ∧ Manifest.Rooted manifest

theorem knownMarkup_congr (agreed : host.foldsCase = other.foldsCase) {unit : CompilationUnit} {manifest : ManifestUnit}
    (handle : unit.handle = .manifest manifest) (files : Manifest.Rooted manifest) (extensions : List String)
    (tree : FileTree) :
    knownMarkup (reading host extensions) host tree unit = knownMarkup (reading other extensions) other tree unit := by
  have listed (host : Host) : (reading host extensions).frontend.markupFiles unit = .ok manifest.markupFiles := by
    simp only [reading, Manifest.frontend, Manifest.unitOf_manifest handle]
    rfl
  have canonical : ∀ path ∈ manifest.markupFiles, host.canonical path = other.canonical path :=
    fun path listed => canonical_of_absolute agreed (files.markup path listed)
  have existing : existingMarkup (reading host extensions) host tree manifest.markupFiles
      = existingMarkup (reading other extensions) other tree manifest.markupFiles := by
    have endings (path : String) : (reading host extensions).hasMarkupExtension path
        = (reading other extensions).hasMarkupExtension path := by
      simp only [hasMarkupExtension, reading]
    simp only [existingMarkup, endings]
    rw [List.map_congr_left fun path listed => canonical path (List.mem_of_mem_filter listed)]
  have unset (host : Host) : (reading host extensions).markupFiles = none := rfl
  rw [knownMarkup, knownMarkup, unset, unset]
  dsimp only
  rw [listed, listed]
  exact congrArg (fun paths => Except.ok (FileSet.ofList paths)) existing

/-- The results of a unit, and what is noted about them, are the same on both hosts. -/
theorem directDependencies_congr (agreed : host.foldsCase = other.foldsCase) {unit : CompilationUnit}
    (rooted : RootedUnit unit) (extensions : List String) (thread : String) (world : World) :
    ((reading host extensions).directDependencies host thread unit).outcome world
      = ((reading other extensions).directDependencies other thread unit).outcome world := by
  obtain ⟨manifest, handle, files⟩ := rooted.manifest
  have sources (host : Host) : (reading host extensions).frontend.sourceFiles unit = .ok manifest.sourceFiles := by
    simp only [reading, Manifest.frontend, Manifest.unitOf_manifest handle]
    rfl
  have named (host : Host) : (reading host extensions).frontend.name = "manifest" := rfl
  have analysed (markup : FileSet) :
      Context.analyze ⟨reading host extensions, host, world.tree, unit, markup⟩ manifest.sourceFiles
        = Context.analyze ⟨reading other extensions, other, world.tree, unit, markup⟩ manifest.sourceFiles :=
    Context.analyze_congr agreed rooted.place handle files files.sources
  simp only [directDependencies, Frontend.listNoted, Run.outcome_bind, Run.outcome_tree, Run.outcome_ofExcept,
    Run.outcome_note, Run.outcome_record, Run.outcome_pure, sources, named, analysed, knownMarkup_congr agreed handle files]

end Builder

end DeclGraph
