import DeclGraph.Proofs.MemberDependencies
import DeclGraph.Proofs.SavedTexts
import DeclGraph.Proofs.WorkingDirectory

/-!
What becomes of a graph after the analysis: it is put together, filtered, saved and read again. None of this asks for
the working directory, since the canonical root and the files of the graph are absolute. So a service that is moved
to another directory answers as before and leaves the same file tree.
-/

namespace DeclGraph

open DeclGraph.Path (isAbsolute)
open DeclGraph.Manifest (overloads writtenWorld)
open DeclGraph.Host (NotRelative canonical_of_absolute locate_of_absolute locateValue_of_notRelative absolute_of_locate
  notRelative_text)

variable {host other : Host}

namespace Manifest

open Load

theorem openUnit_congr (agreed : host.foldsCase = other.foldsCase) {given : Document} (rooted : NotRelative given)
    (world : World) : (openUnit host given).outcome world = (openUnit other given).outcome world := by
  refine Run.outcome_bind_congr ?_ fun path after located => ?_
  · rw [Run.outcome_ofExcept, Run.outcome_ofExcept, locateValue_of_notRelative agreed rooted]
  · rw [Run.outcome_ofExcept, Prod.mk.injEq] at located
    obtain ⟨spelling, _, _, rfl⟩ := Host.locateValue_eq_ok located.1
    simp only [load_congr agreed (Path.isAbsolute_canonical host spelling)]

theorem rooted_of_openUnit {given : Document} {unit : CompilationUnit} {world after : World}
    (ran : (openUnit host given).outcome world = (.ok unit, after)) : Builder.RootedUnit unit := by
  obtain ⟨path, bytes, data, manifest, name, stored, loaded, _, rfl, _⟩ := openUnit_eq_ok.mp ran
  obtain ⟨types, middle, loading, listed, _, entered, linked, shown⟩ := load_eq_ok.mp loaded
  obtain ⟨spelling, _, _, rfl⟩ := Host.locateValue_eq_ok stored.located
  exact ⟨Path.isAbsolute_canonical host spelling, manifest, rfl,
    rooted_of_shown (types_reading entered linked).1.good shown⟩

end Manifest

namespace Graph

theorem ofDirect_congr (agreed : host.foldsCase = other.foldsCase) {results : List FileDependencies}
    (canonical : ∀ result ∈ results, CanonicalResult host result) : ofDirect host results = ofDirect other results := by
  have rows : ∀ result ∈ results, canonicalRow host result = canonicalRow other result := by
    intro result member
    obtain ⟨file, dependencies⟩ := canonical result member
    rw [canonicalRow, canonicalRow, locate_of_absolute agreed (absolute_of_locate file),
      mapM_congr_mem fun dependency listed => locate_of_absolute agreed (absolute_of_locate (dependencies dependency listed))]
  rw [ofDirect, ofDirect, mapM_congr_mem rows]

theorem filter_congr (agreed : host.foldsCase = other.foldsCase) {root : String} (rooted : isAbsolute root = true)
    (graph : Graph) : filter host graph (.text root) = filter other graph (.text root) := by
  rw [filter, filter, locateValue_of_notRelative agreed (notRelative_text rooted)]

end Graph

namespace Saved

section Texts

variable {root : String} (agreed : host.foldsCase = other.foldsCase) (rooted : isAbsolute root = true)
include agreed rooted

theorem relativeValue_congr {file : String} (placed : isAbsolute file = true) :
    host.relativeValue (.text file) (.text root) = other.relativeValue (.text file) (.text root) := by
  simp only [Host.relativeValue, Host.isWithin, locateValue_of_notRelative agreed (notRelative_text rooted),
    locateValue_of_notRelative agreed (notRelative_text placed)]

theorem relativeRows_congr {map : DependencyMap}
    (placed : ∀ row ∈ map, ∀ file, file = row.1 ∨ file ∈ row.2 → isAbsolute file = true) :
    relativeRows host (.text root) map = relativeRows other (.text root) map := by
  refine bind_congr_ok (mapM_congr_mem fun row listed => ?_) fun named keys => mapM_congr_mem fun row listed => ?_
  · rw [relativeValue_congr agreed rooted (placed row listed _ (Or.inl rfl))]
  · -- A row that was named and joined still has the files of a row of the map.
    obtain none | joined := mem_foldl_set ((List.mergeSort_perm _ _).mem_iff.mp listed)
    · cases none
    · obtain ⟨given, inMap, made⟩ := exists_of_mem_right (mapM_eq_ok.mp keys) joined
      obtain ⟨_, _, same⟩ := bind_eq_ok.mp made
      cases same
      rw [mapM_congr_mem fun file inside => relativeValue_congr agreed rooted (placed given inMap file (Or.inr inside))]

theorem writeOperand_congr {graph : Graph} (placed : ∀ file, graph.Mentions file → isAbsolute file = true) :
    writeOperand host (.graph graph) (.text root) = writeOperand other (.graph graph) (.text root) := by
  have upstream := relativeRows_congr agreed rooted fun row listed file mentioned =>
    placed file (Or.inl ⟨row, listed, mentioned⟩)
  have downstream := relativeRows_congr agreed rooted fun row listed file mentioned =>
    placed file (Or.inr ⟨row, listed, mentioned⟩)
  rw [Service.writeOperand_graph, Service.writeOperand_graph, write, write, upstream, downstream]

theorem fileOf?_congr (tree : FileTree) (name : Document) : fileOf? host tree root name = fileOf? other tree root name := by
  unfold fileOf?
  split
  · split
    · rfl
    · rw [canonical_of_absolute agreed (Path.isAbsolute_joinAll rooted _)]
  · rfl

theorem readUnder_congr (tree : FileTree) (text : Document) :
    readUnder host tree text (.text root) = readUnder other tree text (.text root) := by
  have located : host.locateValue (.text root) = other.locateValue (.text root) :=
    locateValue_of_notRelative agreed (notRelative_text rooted)
  have directory : rootIsDirectory host tree (.text root) = rootIsDirectory other tree (.text root) := by
    rw [rootIsDirectory, rootIsDirectory, Path.absolute_of_isAbsolute rooted, Path.absolute_of_isAbsolute rooted]
  cases found : host.locateValue (.text root) with
  | error fault => simp only [readUnder, directory, ← located, found, bind, Except.bind]
  | ok place =>
    have given (document : Document) : read host tree place document = read other tree place document :=
      read_congr fun name _ => fileOf?_congr agreed (absolute_of_locate found) tree name
    simp only [readUnder, directory, ← located, found, bind, Except.bind, given]

theorem restore_congr (text : Document) (world : World) :
    (restore host text (.text root)).outcome world = (restore other text (.text root)).outcome world := by
  simp only [restore, Run.outcome_bind, Run.outcome_tree, Run.outcome_ofExcept, readUnder_congr agreed rooted]

end Texts

end Saved

namespace FileTree

theorem makeDirectories_congr (cwd elsewhere : String) {root : String} (rooted : root = "/" ∨ root = "//")
    (names : List String) (tree : FileTree) :
    makeDirectories cwd root names tree = makeDirectories elsewhere root names tree := by
  induction count : names.length generalizing names with
  | zero =>
    have bare : names = [] := List.length_eq_zero_iff.mp count
    subst bare
    unfold makeDirectories
    simp only [fullText_of_rooted _ rooted, dif_pos]
  | succ count ih =>
    have above := ih names.dropLast (by rw [List.length_dropLast]; omega)
    unfold makeDirectories
    simp only [fullText_of_rooted _ rooted, above]

end FileTree

namespace GraphStore

/-- The root is absolute, and so is the place of a file. -/
def Anchored : GraphStore → Prop
  | .file root trail => isAbsolute root = true ∧ (trail.root = "/" ∨ trail.root = "//")
  | .memory root _ => isAbsolute root = true

theorem place_congr (host other : Host) {trail : Path.Trail} (anchored : trail.root = "/" ∨ trail.root = "//")
    (text : String) : place host trail text = place other trail text := by
  have made (tree : FileTree) := FileTree.makeDirectories_congr host.cwd other.cwd anchored trail.parent.names tree
  have same : Run.makeDirectories host.cwd trail.parent = Run.makeDirectories other.cwd trail.parent := by
    simp only [Run.makeDirectories, show trail.parent.root = trail.root from rfl, made]
  simp only [place, placeWith, same]

section Stores

variable {store : GraphStore} (agreed : host.foldsCase = other.foldsCase) (anchored : store.Anchored)
include agreed anchored

theorem load_congr (world : World) : (store.load host).outcome world = (store.load other).outcome world := by
  unfold load
  split
  · rfl
  · exact Saved.restore_congr agreed anchored _ world
  · refine Run.outcome_bind_congr rfl fun tree after _ => Run.outcome_bind_congr rfl fun entry after _ => ?_
    split
    · dsimp only
      split
      · rfl
      · exact Run.outcome_bind_congr (Saved.restore_congr agreed anchored.1 _ _) fun _ _ _ => rfl
    · rfl

theorem save_congr {graph : Graph} (placed : ∀ file, graph.Mentions file → isAbsolute file = true) :
    store.save host (.graph graph) = store.save other (.graph graph) := by
  cases store with
  | memory root saved => simp only [save, GraphStore.root, Saved.writeOperand_congr agreed anchored placed]
  | file root trail =>
    simp only [save, GraphStore.root, Saved.writeOperand_congr agreed anchored.1 placed, place_congr host other anchored.2]

end Stores

end GraphStore

namespace Service

def reading (host : Host) (settings : Settings) (number : Nat) : Service :=
  ⟨settings, .reading host (settings.markupExtensions.map Text.lower), number⟩

theorem create_reading (host : Host) (settings : Settings) (number : Nat) :
    create host settings (.frontend (Manifest.frontend host)) number = .ok (reading host settings number) := by
  have endings : (settings.markupExtensions.map Document.text).mapM Builder.lowerExtension
      = .ok (settings.markupExtensions.map Text.lower) := by
    rw [List.mapM_map]
    exact mapM_of_each fun _ _ => rfl
  simp only [create, Builder.create, FrontendOperand.required, endings, bind, Except.bind, pure, Except.pure, reading,
    Builder.reading]

section Moving

variable {settings : Settings} {number : Nat} {root : String} (agreed : host.foldsCase = other.foldsCase)
include agreed

omit agreed in
theorem checkCancelled_congr (host other : Host) (settings : Settings) (number : Nat) :
    (reading host settings number).checkCancelled = (reading other settings number).checkCancelled := by
  simp only [checkCancelled, reading]

theorem openUnit_congr {path : Document} (rooted : NotRelative path) (world : World) :
    ((reading host settings number).openUnit path).outcome world
      = ((reading other settings number).openUnit path).outcome world := by
  have opened (world : World) : ((Manifest.frontend host).openNoted path).outcome world
      = ((Manifest.frontend other).openNoted path).outcome world := by
    have named (host : Host) : (Manifest.frontend host).name = "manifest" := rfl
    simp only [Frontend.openNoted, Run.outcome_bind, named]
    exact Manifest.openUnit_congr agreed rooted _
  simp only [openUnit, checkCancelled_congr host other]
  simp only [Run.outcome_bind, reading, Builder.reading, opened]

omit agreed in
theorem rooted_of_openUnit {path : Document} {unit : CompilationUnit} {world after : World}
    (ran : ((reading host settings number).openUnit path).outcome world = (.ok unit, after)) : Builder.RootedUnit unit := by
  obtain ⟨_, _, _, ran⟩ := Run.outcome_bind_eq_ok.mp ran
  obtain ⟨_, _, _, ran⟩ := Run.outcome_bind_eq_ok.mp ran
  obtain ⟨_, _, _, ran⟩ := Run.outcome_bind_eq_ok.mp ran
  exact Manifest.rooted_of_openUnit ran

theorem analyzeUnit_congr {unit : CompilationUnit} (rooted : Builder.RootedUnit unit) (world : World) :
    ((reading host settings number).analyzeUnit host (.unit unit)).outcome world
      = ((reading other settings number).analyzeUnit other (.unit unit)).outcome world := by
  simp only [analyzeUnit, checkCancelled_congr host other]
  simp only [Run.outcome_bind, reading, Builder.directDependencies_congr agreed rooted]

theorem assemble_congr (rooted : isAbsolute root = true) {results : List (List FileDependencies)}
    (canonical : ∀ part ∈ results, ∀ result ∈ part, Graph.CanonicalResult host result) :
    assemble host root results = assemble other root results := by
  rw [assemble, assemble, mapM_congr_mem fun part listed => Graph.ofDirect_congr agreed (canonical part listed)]
  exact bind_congr_ok rfl fun graphs _ => Graph.filter_congr agreed rooted _

theorem buildUnder_congr (rooted : isAbsolute root = true) {units : List CompilationUnit}
    (all : ∀ unit ∈ units, Builder.RootedUnit unit) (world : World) :
    ((reading host settings number).buildUnder host root (units.map .unit)).outcome world
      = ((reading other settings number).buildUnder other root (units.map .unit)).outcome world := by
  have analysed (world : World) :
      ((units.map UnitOperand.unit).mapM ((reading host settings number).analyzeUnit host)).outcome world
        = ((units.map UnitOperand.unit).mapM ((reading other settings number).analyzeUnit other)).outcome world := by
    refine Run.outcome_mapM_congr (fun unit listed world => ?_) world
    obtain ⟨opened, member, rfl⟩ := List.mem_map.mp listed
    exact analyzeUnit_congr agreed (all opened member) world
  have canonical {parts : List (List FileDependencies)} {world after : World}
      (ran : ((units.map UnitOperand.unit).mapM ((reading host settings number).analyzeUnit host)).outcome world
        = (.ok parts, after)) : ∀ part ∈ parts, ∀ result ∈ part, Graph.CanonicalResult host result := by
    intro part listed result member
    obtain ⟨unit, _, found⟩ := exists_of_mem_right (mapM_analyzeUnit_eq_ok ran).1 listed
    exact Builder.canonical_of_there (there_of_resultsOf found result member)
  simp only [buildUnder, Run.outcome_refuse, checkCancelled_congr host other]
  split
  · rfl
  · refine Run.outcome_bind_congr rfl fun _ after _ => ?_
    split
    · rfl
    · refine Run.outcome_bind_congr (analysed after) fun parts last ran => ?_
      refine Run.outcome_bind_congr ?_ fun _ _ _ => rfl
      rw [Run.outcome_ofExcept, Run.outcome_ofExcept, assemble_congr agreed rooted (canonical ran)]

theorem locateRoot_congr (rooted : isAbsolute root = true) :
    locateRoot host (.text root) = locateRoot other (.text root) := by
  simp only [locateRoot, GraphStore.locateRoot, locateValue_of_notRelative agreed (notRelative_text rooted)]

theorem build_congr (rooted : isAbsolute root = true) {units : List CompilationUnit}
    (all : ∀ unit ∈ units, Builder.RootedUnit unit) (world : World) :
    ((reading host settings number).build host (.text root) (some (units.map .unit))).outcome world
      = ((reading other settings number).build other (.text root) (some (units.map .unit))).outcome world := by
  refine Run.outcome_bind_congr (congrArg (Run.outcome · world) (locateRoot_congr agreed rooted)) fun place after ran => ?_
  obtain ⟨located, _, _⟩ := locateRoot_eq_ok.mp ran
  exact buildUnder_congr agreed (absolute_of_locate (locateValue_of_located located)) all after

/-- Of the units that are asked for, none is named by a relative path. -/
def AllRooted (units : Document) : Prop := ∀ paths, units.elements? = some paths → ∀ path ∈ paths, NotRelative path

theorem analyzeUnder_congr (rooted : isAbsolute root = true) {units : Document} (all : AllRooted units) (world : World) :
    ((reading host settings number).analyzeUnder host root units).outcome world
      = ((reading other settings number).analyzeUnder other root units).outcome world := by
  unfold analyzeUnder
  cases listed : units.elements? with
  | none => rfl
  | some paths =>
    dsimp only
    have opened (world : World) : (paths.mapM (reading host settings number).openUnit).outcome world
        = (paths.mapM (reading other settings number).openUnit).outcome world :=
      Run.outcome_mapM_congr (fun path member world => openUnit_congr agreed (all paths listed path member) world) world
    refine Run.outcome_bind_congr (opened world) fun units after ran => ?_
    exact build_congr agreed rooted (Run.forall_of_mapM (fun _ _ _ _ _ => rooted_of_openUnit) ran) after

omit agreed in
theorem absolute_of_analyzeUnder (fixed : host.canonical root = root) {units : Document} {graph : Graph}
    {world after : World}
    (ran : ((reading host settings number).analyzeUnder host root units).outcome world = (.ok graph, after))
    {file : String} (mentioned : graph.Mentions file) : isAbsolute file = true :=
  absolute_of_locate ((analyzeUnder_eq_ok (locateRoot_text fixed) ran).there file mentioned).1

theorem rebuild_congr (fixed : host.canonical root = root) {store : GraphStore} (anchored : store.Anchored)
    {units : Document} (all : AllRooted units) (world : World) :
    ((reading host settings number).rebuild host store root units).outcome world
      = ((reading other settings number).rebuild other store root units).outcome world := by
  have rooted : isAbsolute root = true := fixed ▸ Path.isAbsolute_canonical host root
  simp only [rebuild, Run.outcome_refuse]
  split
  · rfl
  · refine Run.outcome_bind_congr (analyzeUnder_congr agreed rooted all world) fun graph after ran => ?_
    rw [GraphStore.save_congr agreed anchored fun file mentioned => absolute_of_analyzeUnder fixed ran mentioned]

theorem analyze_congr (rooted : isAbsolute root = true) {units : Document} (all : AllRooted units) (world : World) :
    ((reading host settings number).analyze host (.text root) units).outcome world
      = ((reading other settings number).analyze other (.text root) units).outcome world := by
  refine Run.outcome_bind_congr (congrArg (Run.outcome · world) (locateRoot_congr agreed rooted)) fun place after ran => ?_
  obtain ⟨located, _, _⟩ := locateRoot_eq_ok.mp ran
  have placed : isAbsolute place = true := absolute_of_locate (locateValue_of_located located)
  simp only [Run.outcome_refuse]
  split
  · rfl
  · exact analyzeUnder_congr agreed placed all after

theorem loadOrBuild_congr (rooted : isAbsolute root = true) {units : Document} (all : AllRooted units) (force : Bool)
    (world : World) : ((reading host settings number).loadOrBuild host (.text root) units force).outcome world
      = ((reading other settings number).loadOrBuild other (.text root) units force).outcome world := by
  refine Run.outcome_bind_congr (congrArg (Run.outcome · world) (locateRoot_congr agreed rooted)) fun place after ran => ?_
  obtain ⟨located, _, _⟩ := locateRoot_eq_ok.mp ran
  have fixed := canonical_of_locateRoot located
  have also : other.canonical place = place :=
    (canonical_of_absolute agreed (absolute_of_locate (locateValue_of_located located))).symm.trans fixed
  simp only [Run.outcome_refuse]
  split
  · rfl
  · have settingsOf (host : Host) : (reading host settings number).settings = settings := rfl
    rw [store_text fixed, store_text also, settingsOf, settingsOf]
    refine Run.outcome_bind_congr rfl fun store later opened => ?_
    rw [Run.outcome_ofExcept, Prod.mk.injEq, Except.ok.injEq] at opened
    have anchored : store.Anchored := by
      have placed := absolute_of_locate (locateValue_of_located located)
      rw [← opened.1]
      split
      · exact ⟨placed, rooted_of_located located settings⟩
      · exact placed
    have built (world : World) : ((reading host settings number).rebuild host store place units).outcome world
        = ((reading other settings number).rebuild other store place units).outcome world :=
      rebuild_congr agreed fixed anchored all world
    split
    · exact built later
    · refine Run.outcome_bind_congr (GraphStore.load_congr agreed anchored later) fun saved loaded _ => ?_
      cases saved with
      | none => exact built loaded
      | some graph => rfl

end Moving

theorem analyze_overloads {service : Service} (uses : service.builder.frontend = Manifest.frontend Saved.sampleHost) :
    ∃ graph after, (service.analyze Saved.sampleHost (.text "/w") (.list [.text "/w/u.json"])).outcome
        (writtenWorld (overloads none none)) = (.ok graph, after)
      ∧ ∀ next, next ∈ graph.upstream.get "/w/a.cs" ↔ next = "/w/b.cs" := by
  have fixed : Saved.sampleHost.canonical "/w" = "/w" := by decide +kernel
  have located : Saved.sampleHost.locate "/w" = .ok "/w" := locateRoot_text fixed
  have directory : (writtenWorld (overloads none none)).tree.isDirectory "/w" = true := by rfl
  obtain ⟨manifest, loaded⟩ : ∃ manifest, Manifest.loadWritten (overloads none none) = .ok manifest :=
    Manifest.exists_loadWritten (by decide +kernel)
  have walks := Manifest.holds_of_loadWritten (Manifest.WalksTo 9 "/w/b.cs") loaded (by decide +kernel)
  let unit : CompilationUnit := ⟨"/w/u.json", "u.json", .manifest manifest⟩
  obtain ⟨results, found, ⟨result, listed, here⟩, only⟩ := Manifest.results_of_walk uses loaded
    (show unit.handle = _ from rfl) (by simp [unit]) walks (by simp)
  have canonical : ∀ part ∈ [results], ∀ result ∈ part, Graph.CanonicalResult Saved.sampleHost result := by
    intro part inside result member
    rw [List.mem_singleton.mp inside] at member
    exact Builder.canonical_of_there (Builder.there_of_resultsOf found result member)
  obtain ⟨graph, made, shows⟩ := assemble_showsBelow located canonical
  have opens (seen : World) (same : seen.tree = (writtenWorld (overloads none none)).tree) :
      (service.builder.frontend.openUnit (.text "/w/u.json")).outcome seen = (.ok unit, seen) := by
    have present : Saved.sampleHost.locateValue (.text "/w/u.json") = .ok "/w/u.json" :=
      eq_ok_of_toOption (by decide +kernel)
    rw [uses]
    exact Manifest.openUnit_of_located present (Manifest.plain_overloads none none) rfl rfl loaded same
  obtain ⟨after, ran⟩ : ∃ after, (service.analyzeUnder Saved.sampleHost "/w" (.list [.text "/w/u.json"])).outcome
      (writtenWorld (overloads none none)) = (.ok graph, after) :=
    analyzeUnder_of_opened located (by simp [writtenWorld]) directory opens found made
  refine ⟨graph, after, ?_, fun next => ?_⟩
  · have entered : (locateRoot Saved.sampleHost (.text "/w")).outcome (writtenWorld (overloads none none)) =
        (.ok "/w", writtenWorld (overloads none none)) :=
      locateRoot_eq_ok.mpr ⟨locateRoot_text fixed, directory, rfl⟩
    rw [analyze, Run.outcome_bind, entered]
    exact ran
  · have below : Path.isBelow "/w" "/w/a.cs" = true ∧ Path.isBelow "/w" "/w/b.cs" = true := by decide +kernel
    rw [shows.members]
    simp only [Graph.Stated, List.flatten_singleton]
    constructor
    · rintro ⟨⟨result, member, own, inside, _⟩, _⟩
      exact (only result member own next).mp inside
    · rintro rfl
      exact ⟨⟨result, listed, here, (only result listed here _).mpr rfl, by decide⟩, below⟩

/-- What a service makes of absolute paths is the same in every working directory, and so are the file tree that it
leaves, its log and its faults. -/
theorem same_in_every_directory (host : Host) (cwd : String) (settings : Settings) (number : Nat) {root : String}
    (rooted : isAbsolute root = true) {paths : List String} (absolute : ∀ path ∈ paths, isAbsolute path = true) :
    ∃ service moved, create host settings (.frontend (Manifest.frontend host)) number = .ok service
      ∧ create { host with cwd } settings (.frontend (Manifest.frontend { host with cwd })) number = .ok moved
      ∧ ∀ world, (service.analyze host (.text root) (.list (paths.map .text))).outcome world
          = (moved.analyze { host with cwd } (.text root) (.list (paths.map .text))).outcome world
        ∧ ∀ force, (service.loadOrBuild host (.text root) (.list (paths.map .text)) force).outcome world
          = (moved.loadOrBuild { host with cwd } (.text root) (.list (paths.map .text)) force).outcome world := by
  have agreed : host.foldsCase = { host with cwd }.foldsCase := rfl
  have all : AllRooted (.list (paths.map .text)) := by
    rintro _ ⟨⟩ _ member
    obtain ⟨path, listed, rfl⟩ := List.mem_map.mp member
    exact notRelative_text (absolute path listed)
  exact ⟨_, _, create_reading _ _ _, create_reading _ _ _, fun world =>
    ⟨analyze_congr agreed rooted all world, fun force => loadOrBuild_congr agreed rooted all force world⟩⟩

/-- From a directory that is not even there, a service opens a manifest by its absolute path and finds the files that
the manifest names beside it. -/
theorem same_in_every_directory_elsewhere : ∃ moved graph after,
    create { Saved.sampleHost with cwd := "/elsewhere" } { path := "" }
        (.frontend (Manifest.frontend { Saved.sampleHost with cwd := "/elsewhere" })) 0 = .ok moved
      ∧ (moved.analyze { Saved.sampleHost with cwd := "/elsewhere" } (.text "/w") (.list [.text "/w/u.json"])).outcome
        (writtenWorld (overloads none none)) = (.ok graph, after)
      ∧ ∀ next, next ∈ graph.upstream.get "/w/a.cs" ↔ next = "/w/b.cs" := by
  have absolute : ∀ path ∈ ["/w/u.json"], isAbsolute path = true := by decide
  obtain ⟨service, moved, created, also, same⟩ :=
    same_in_every_directory Saved.sampleHost "/elsewhere" { path := "" } 0 (by decide : isAbsolute "/w" = true) absolute
  cases (create_reading _ _ _).symm.trans created
  obtain ⟨graph, after, ran, edges⟩ :=
    analyze_overloads (show (reading Saved.sampleHost { path := "" } 0).builder.frontend = _ from rfl)
  exact ⟨moved, graph, after, also, (same _).1.symm.trans ran, edges⟩

end Service

end DeclGraph
