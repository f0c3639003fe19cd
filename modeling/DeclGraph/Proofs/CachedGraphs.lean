import DeclGraph.Proofs.BuiltGraphs
import DeclGraph.Proofs.FailedOperations
import DeclGraph.Proofs.NamesLeadBack
import DeclGraph.Proofs.PlacedTexts
import DeclGraph.Proofs.SavedTexts
import DeclGraph.Proofs.TreePlaces
import DeclGraph.Proofs.WalkedVisits

/-!
Graphs that are kept between runs. A graph that was built names what is there, below the root, which is all
that reading back asks for; so what one run gives, the next one finds again, without the frontend.
-/

namespace DeclGraph

namespace Text

theorem unifyBreaks_plain {cs : List Char} (plain : '\r' ∉ cs) : unifyBreaks cs = cs := by
  induction cs with
  | nil => rfl
  | cons c rest ih =>
    have different : c ≠ '\r' := fun same => plain (same ▸ List.mem_cons_self)
    have later := ih fun member => plain (List.mem_cons_of_mem _ member)
    simp [unifyBreaks, different, later]

theorem ofBytes_toUTF8 {text : String} (plain : '\r' ∉ text.toList) : ofBytes text.toUTF8 = .ok text := by
  have decoded : String.fromUTF8? text.toUTF8 = some text := by
    rw [String.fromUTF8?, String.toUTF8_eq_toByteArray, dif_pos text.isValidUTF8]
    rfl
  rw [ofBytes, ofUtf8, decoded]
  show Except.ok (String.ofList (unifyBreaks text.toList)) = _
  rw [unifyBreaks_plain plain, String.ofList_toList]

end Text

namespace Settings

/-- The names of the cache are no absolute paths, so that the saved graph lies by way of the root. -/
def Relative (settings : Settings) : Prop :=
  Path.isAbsolute settings.cacheDirName = false ∧ Path.isAbsolute settings.graphFileName = false

end Settings

namespace GraphStore

open FileTree

theorem trail_ofText_text {place : Path.Location} (proper : place.Proper) :
    Path.Trail.ofText place.text = place.trail := by
  have root : Path.Trail.rootOf place.text = if place.doubled then "//" else "/" := by
    rw [Path.Trail.rootOf, Path.isDoubled_text proper, Path.isAbsolute_text]
    rfl
  have names : Path.Trail.namesOf place.text = place.names := by
    have present := Path.names_text proper
    have kept : place.names.filter (· ≠ ".") = place.names :=
      List.filter_eq_self.mpr fun name member => by simpa using (proper name member).notHere
    rw [← kept, ← present, Path.names, Path.Trail.namesOf, List.filter_filter]
    congr 1
    funext segment
    simp [Bool.and_comm]
  rw [Path.Trail.ofText, root, names, Path.Location.trail]

theorem rootOf_relative {name : String} (relative : Path.isAbsolute name = false) :
    (Path.Trail.ofText name).root = "" := by
  rw [Path.Trail.ofText, Path.Trail.rootOf, Path.isDoubled_of_relative relative, relative]
  rfl

def artifactNames (settings : Settings) : List String :=
  Path.Trail.namesOf settings.cacheDirName ++ [metadataName] ++ Path.Trail.namesOf settings.graphFileName

theorem artifactNames_ne_nil (settings : Settings) : artifactNames settings ≠ [] := by simp [artifactNames]

theorem artifact_eq {settings : Settings} (relative : settings.Relative) {place : Path.Location} (proper : place.Proper) :
    artifact settings place.text = ⟨place.trail.root, place.names ++ artifactNames settings⟩ := by
  have metadata : Path.Trail.ofText metadataName = ⟨"", [metadataName]⟩ := by decide
  simp only [artifact, Path.Trail.join, Path.Trail.append, trail_ofText_text proper, metadata,
    rootOf_relative relative.1, rootOf_relative relative.2, if_pos]
  simp [artifactNames, Path.Trail.ofText, Path.Location.trail]

theorem artifact_text {settings : Settings} (relative : settings.Relative) {root : String}
    (named : Path.IsNamedRoot root) : ∃ more, (artifact settings root).text = root ++ "/" ++ more := by
  obtain ⟨place, proper, rfl⟩ := named.1
  have present := Path.named_of_isNamedRoot named
  refine ⟨"/".intercalate (artifactNames settings), ?_⟩
  rw [artifact_eq relative proper, Path.Trail.text_of_rooted place.rooted_trail,
    String.intercalate_append_of_ne_nil present (artifactNames_ne_nil settings), Path.Location.trail, Path.Location.text,
    ← String.append_assoc, ← String.append_assoc]

theorem probe_eq_some {tree : FileTree} {path : String} {entry : FileEntry} :
    tree.probe path = .ok (some entry) ↔ tree.look path = .ok entry := by
  rw [probe]
  cases tree.look path with
  | ok found => simp
  | error fault => cases fault <;> simp

theorem load_eq_some {host : Host} {root : String} {trail : Path.Trail} {graph : Graph} {world after : World} :
    ((GraphStore.file root trail).load host).outcome world = (.ok (some graph), after) ↔
      after = world ∧ ∃ bytes text, world.tree.look trail.text = .ok (.file bytes) ∧ Text.ofBytes bytes = .ok text
        ∧ Saved.readUnder host world.tree (.text text) (.text root) = .ok (.ok graph) := by
  simp only [← probe_eq_some]
  unfold GraphStore.load
  simp only [Run.outcome_bind, Run.outcome_tree, Run.outcome_onTree]
  rcases world.tree.probe trail.text with fault | _ | _ | bytes
  · simp
  · simp [Run.outcome_pure]
  · simp [Run.outcome_pure]
  · simp only
    cases decoded : Text.ofBytes bytes with
    | error flaw => simp [Run.outcome_throw, decoded]
    | ok text =>
      -- The bytes are known by now, so nothing is left to choose but the text they hold.
      have only : (∃ given text,
          (.ok (some (.file bytes)) : Except TreeFault (Option FileEntry)) = .ok (some (.file given)) ∧ Text.ofBytes given = .ok text
          ∧ Saved.readUnder host world.tree (.text text) (.text root) = .ok (.ok graph)) ↔
          Saved.readUnder host world.tree (.text text) (.text root) = .ok (.ok graph) := by
        constructor
        · rintro ⟨given, other, same, also, found⟩
          cases same
          cases decoded.symm.trans also
          exact found
        · intro found
          exact ⟨bytes, text, rfl, decoded, found⟩
      rw [only]
      simp only [Run.outcome_bind, Saved.restore_outcome]
      rcases Saved.readUnder host world.tree (.text text) (.text root) with fault | rejection | found
      · simp
      · simp only [Option.isNone_none, if_true, Run.outcome_bind, Run.outcome_log, Run.outcome_pure]
        simp
      · simp only [Option.isNone_some, Bool.false_eq_true, if_false, Run.outcome_pure]
        constructor
        · intro same
          cases same
          exact ⟨rfl, rfl⟩
        · rintro ⟨rfl, same⟩
          cases same
          rfl

end GraphStore

namespace Service

open FileTree DeclGraph.Graph

variable {host : Host} {service : Service} {root : Document} {place : String}

theorem rebuild_eq_ok {store : GraphStore} {units : Document} {graph : Graph} {world after : World}
    (ran : (service.rebuild host store place units).outcome world = (.ok graph, after)) :
    ∃ analyzed saved, (service.analyzeUnder host place units).outcome world = (.ok graph, analyzed)
      ∧ (store.save host (.graph graph)).outcome analyzed = (.ok saved, after) := by
  rw [rebuild] at ran
  simp only [Run.outcome_refuse] at ran
  split at ran
  · cases ran
  · obtain ⟨built, analyzed, analysis, ran⟩ := Run.outcome_bind_eq_ok.mp ran
    obtain ⟨saved, last, saving, same⟩ := Run.outcome_bind_eq_ok.mp ran
    cases same
    exact ⟨analyzed, saved, analysis, saving⟩

theorem loadOrBuild_unforced {store : GraphStore} {world : World} (opened : Opened host service root world.tree place store)
    {units : Document} (given : units.isNull = false) :
    (service.loadOrBuild host root units false).outcome world =
      match (store.load host).outcome world with
      | (.error fault, loaded) => (.error fault, loaded)
      | (.ok none, loaded) => (service.rebuild host store place units).outcome loaded
      | (.ok (some graph), loaded) => (.ok graph, { loaded with journal := loaded.journal
        ++ [{ channel := Channel.service, level := .info, message := "Using cached dependency graph for " ++ place }] }) := by
  have entered := locateRoot_eq_ok.mpr ⟨opened.located, opened.directory, rfl⟩
  rw [loadOrBuild, Run.outcome_bind, entered]
  simp only [Run.outcome_refuse, Run.outcome_bind, Run.outcome_ofExcept, given, opened.stored]
  rw [if_neg Bool.false_ne_true, if_neg Bool.false_ne_true, Run.outcome_bind]
  rcases (store.load host).outcome world with ⟨fault | _ | graph, loaded⟩
  · rfl
  · rfl
  · rfl

/-- A saved graph that can be loaded is given, whatever units are named, and the frontend is not asked. -/
theorem loadOrBuild_of_load {store : GraphStore} {world : World} (opened : Opened host service root world.tree place store)
    {again : Graph} (loads : (store.load host).outcome world = (.ok (some again), world)) {units : Document}
    (given : units.isNull = false) :
    ∃ final, (service.loadOrBuild host root units false).outcome world = (.ok again, final)
      ∧ final.tree = world.tree ∧ final.calls = world.calls := by
  rw [loadOrBuild_unforced opened given, loads]
  exact ⟨_, rfl, rfl, rfl⟩

theorem store_of_cached (cached : service.settings.enableGraphCache = true) (fixed : host.canonical place = place)
    {store : GraphStore} (given : service.store host (.text place) = .ok store) :
    store = .file place (GraphStore.artifact service.settings place) := by
  cases (store_text fixed).symm.trans given
  rw [if_pos cached]

/-- A graph of what is there can be led back to by its names. -/
theorem recoverable_of_built {tree : FileTree} {graph : Graph} (fixed : host.canonical place = place)
    (single : place ≠ "/") (double : place ≠ "//") (built : BuiltFrom host tree place graph)
    (plain : ∀ file, graph.Mentions file → '\\' ∉ file.toList.drop place.toList.length) {file : String}
    (mentioned : graph.Mentions file) : Saved.Recoverable host place file := by
  apply Saved.recoverable_of_plain fixed (built.there file mentioned).1 (built.below file mentioned) (plain file mentioned)
  rintro (bare | bare)
  · exact absurd bare single
  · exact absurd bare double

theorem load_of_saved {trail : Path.Trail} {before : FileTree} {graph : Graph} {text : String} {later : World}
    (fixed : host.canonical place = place) (single : place ≠ "/") (double : place ≠ "//")
    (built : BuiltFrom host before place graph)
    (plain : ∀ file, graph.Mentions file → '\\' ∉ file.toList.drop place.toList.length)
    (wrote : Saved.write host graph (.text place) = .ok text)
    (changes : ChangesOnly before later.tree trail text.toUTF8) (directory : later.tree.isDirectory place = true) :
    ∃ again, again.same graph = true
      ∧ ((GraphStore.file place trail).load host).outcome later = (.ok (some again), later) := by
  have placed : host.locate place = .ok place := locateRoot_text fixed
  have formed : Formed host graph :=
    ⟨built.coherent.upstreamFormed, built.coherent.downstreamFormed, fun file mentioned => (built.there file mentioned).1⟩
  obtain ⟨document, isPlain, written, holds⟩ := Saved.write_holds placed formed built.coherent
    fun file mentioned => recoverable_of_built fixed single double built plain mentioned
  cases wrote.symm.trans written
  have rooted : Path.absolute host.cwd place = place := by
    obtain ⟨location, _, rfl⟩ := Host.isCanonical_of_fixed fixed
    exact Path.absolute_of_isAbsolute (Path.isAbsolute_text location) host.cwd
  have present : Saved.Present host later.tree place graph := by
    refine ⟨by rwa [rooted], ?_⟩
    intro file mentioned
    exact isFile_stays changes.directoriesStay changes.filesStay (built.there file mentioned).2
  obtain ⟨again, same, restored⟩ := holds.back later present
  obtain ⟨spot, spotPlaced, content, _⟩ := changes
  have unbroken : '\r' ∉ (Json.write .plain document).toList := by
    rw [Json.write, String.toList_ofList]
    exact Json.no_return_chars isPlain 0
  refine ⟨again, same, GraphStore.load_eq_some.mpr ⟨rfl, _, _, ?_, Text.ofBytes_toUTF8 unbroken, ?_⟩⟩
  · exact look_eq_ok.mpr ⟨spot, spotPlaced, content⟩
  · exact (Saved.readUnder_of_restore restored).1

/-- Whatever opening units did to the tree, the root is a directory once the graph is saved by way of it, and
so it is if nothing was done. -/
theorem isDirectory_of_saved (safe : service.settings.Relative ∨ service.builder.frontend.Quiet)
    (fixed : host.canonical place = place) (single : place ≠ "/") (double : place ≠ "//") {units : Document}
    {graph : Graph} {loaded analyzed : World} {after : FileTree} {content : ByteArray}
    (analysis : (service.analyzeUnder host place units).outcome loaded = (.ok graph, analyzed))
    (changes : ChangesOnly analyzed.tree after (GraphStore.artifact service.settings place) content)
    (directory : loaded.tree.isDirectory place = true) : after.isDirectory place = true := by
  obtain ⟨spot, placed, entry⟩ := look_eq_ok.mp (isDirectory_iff.mp directory)
  rcases safe with relative | quiet
  · have named : Path.IsNamedRoot place := ⟨Host.isCanonical_of_fixed fixed, single, double⟩
    obtain ⟨more, spelled⟩ := GraphStore.artifact_text relative named
    obtain ⟨_, artifactPlaced, _⟩ := changes
    rw [spelled] at artifactPlaced
    exact isDirectory_above (place_eq_ok.mp placed).1 artifactPlaced
  · have kept := keeps_analyzeUnder quiet host place units loaded
    rw [analysis] at kept
    have stay := changes.directoriesStay
    rw [kept] at stay
    exact isDirectory_iff.mpr (look_eq_ok.mpr ⟨spot, place_stays stay placed, stay spot entry⟩)

/-- What one run gives, the next one finds again. Once loading or building has given a graph, loading in the
same file tree gives an equal graph, whatever units are named. It does not ask the frontend and leaves the
tree as it is. -/
theorem loadOrBuild_finds_again {units : Document} {force : Bool} {graph : Graph} {world after : World}
    (cached : service.settings.enableGraphCache = true)
    (safe : service.settings.Relative ∨ service.builder.frontend.Quiet)
    (located : host.locateValue root = .ok place) (single : place ≠ "/") (double : place ≠ "//")
    (ran : (service.loadOrBuild host root units force).outcome world = (.ok graph, after))
    (plain : ∀ file, graph.Mentions file → '\\' ∉ file.toList.drop place.toList.length)
    {later : World} (unchanged : later.tree = after.tree) {others : Document} (given : others.isNull = false) :
    ∃ again final, (service.loadOrBuild host root others false).outcome later = (.ok again, final)
      ∧ again.same graph = true ∧ final.tree = later.tree ∧ final.calls = later.calls := by
  obtain ⟨_, _, failed, _⟩ | ⟨found, store, loaded, opened, rest⟩ :=
    loadOrBuild_outcome host service root units force world
  · cases failed.symm.trans ran
  · cases (locateValue_of_located opened.located).symm.trans located
    have fixed := canonical_of_locateRoot opened.located
    obtain rfl := store_of_cached cached fixed opened.stored
    have finds {again : Graph} (same : again.same graph = true) (directory : later.tree.isDirectory place = true)
        (loads : ((GraphStore.file place (GraphStore.artifact service.settings place)).load host).outcome later =
          (.ok (some again), later)) :
        ∃ again final, (service.loadOrBuild host root others false).outcome later = (.ok again, final)
          ∧ again.same graph = true ∧ final.tree = later.tree ∧ final.calls = later.calls := by
      obtain ⟨final, given, tree, calls⟩ :=
        loadOrBuild_of_load ⟨opened.located, directory, opened.stored⟩ loads given
      exact ⟨again, final, given, same, tree, calls⟩
    rcases rest with ⟨saved, journal, loads, gave⟩ | ⟨same, gave⟩
    · -- The graph was found and nothing changed, so it is found once more.
      cases gave.symm.trans ran
      obtain ⟨rfl, bytes, text, looked, decoded, read⟩ := GraphStore.load_eq_some.mp loads
      have coherent : graph.Coherent := by
        obtain ⟨_, _, _, _, _, _, _, _, read⟩ := Saved.readUnder_eq_ok.mp read
        exact Saved.coherent_of_read read
      apply finds (same_refl coherent)
      · rw [unchanged]
        exact opened.directory
      · apply GraphStore.load_eq_some.mpr
        rw [unchanged]
        exact ⟨rfl, bytes, text, looked, decoded, read⟩
    · -- The graph was built and saved, and the saved text is read back.
      obtain ⟨analyzed, saved, analysis, saving⟩ := rebuild_eq_ok (gave.symm.trans ran)
      have built := analyzeUnder_eq_ok (locateRoot_text fixed) analysis
      obtain ⟨text, bytes, tree, journal, wrote, encoded, written, changes⟩ | ⟨_, _, failed, _⟩ :=
        GraphStore.save_outcome host place (rooted_of_located opened.located service.settings) (.graph graph) analyzed
      · cases written.symm.trans saving
        obtain ⟨_, rfl⟩ := Text.toBytes_eq_ok.mp encoded
        rw [writeOperand_graph] at wrote
        have directory : later.tree.isDirectory place = true := by
          rw [unchanged]
          apply isDirectory_of_saved safe fixed single double analysis changes
          rw [same]
          exact opened.directory
        have changed : ChangesOnly analyzed.tree later.tree (GraphStore.artifact service.settings place) text.toUTF8 := by
          rw [unchanged]
          exact changes
        obtain ⟨again, alike, loads⟩ := load_of_saved fixed single double built plain wrote changed directory
        exact finds alike directory loads
      · cases failed.symm.trans saving

def openingService : Service :=
  { sampleService with builder := ⟨{ Builder.sampleFrontend with openUnit := fun _ => pure Builder.sampleUnit }, [], none⟩ }

theorem resultsOf_openingService {tree : FileTree} (first : tree.isFile "/w/a" = true) (second : tree.isFile "/w/b" = true) :
    resultsOf Saved.sampleHost openingService tree (.unit Builder.sampleUnit) = .ok [⟨"/w/a", ["/w/b"], .text "A"⟩] := by
  let context : Builder.Context :=
    ⟨openingService.builder, Saved.sampleHost, tree, Builder.sampleUnit, FileSet.ofList []⟩
  have resolves {path place : String} (located : Saved.sampleHost.locate path = .ok place)
      (there : tree.isFile place = true) : context.resolve path = .ok (some place) :=
    bind_eq_ok.mpr ⟨place, located, if_pos there⟩
  have declared : context.resolve "./a" = .ok (some "/w/a") := resolves (eq_ok_of_toOption (by decide +kernel)) first
  have itself : context.resolve "a" = .ok (some "/w/a") := resolves (eq_ok_of_toOption (by decide +kernel)) first
  have base : context.resolve "b" = .ok (some "/w/b") := resolves (eq_ok_of_toOption (by decide +kernel)) second
  have walked : Builder.sampleTable.dependencies 0 = .ok [.text "b", .text "a"] :=
    SymbolTable.walk_of_within (show Builder.sampleTable.walkWithin 40 _ _ _ = some _ from rfl)
  let started : Builder.PathCache := [("./a", some "/w/a")]
  have all : context.resolveAll "/w/a" started [.text "b", .text "a"] =
      .ok (["/w/b"], ("a", some "/w/a") :: ("b", some "/w/b") :: started) := by
    refine bind_eq_ok.mpr ⟨(some "/w/b", ("b", some "/w/b") :: started), bind_eq_ok.mpr ⟨_, base, rfl⟩, ?_⟩
    refine bind_eq_ok.mpr ⟨([], _), ?_, rfl⟩
    exact bind_eq_ok.mpr ⟨(some "/w/a", _), bind_eq_ok.mpr ⟨_, itself, rfl⟩, rfl⟩
  have analyzed : context.analyzeDeclaration [] ⟨.text "./a", .text "A", .text "A"⟩ =
      .ok (some ⟨"/w/a", ["/w/b"], .text "A"⟩, ("a", some "/w/a") :: ("b", some "/w/b") :: started) := by
    refine bind_eq_ok.mpr ⟨some 0, rfl, ?_⟩
    refine bind_eq_ok.mpr ⟨(some "/w/a", started), bind_eq_ok.mpr ⟨_, declared, rfl⟩, ?_⟩
    exact bind_eq_ok.mpr ⟨_, walked, bind_eq_ok.mpr ⟨_, all, rfl⟩⟩
  have added : context.addFile {} "a" = .ok ⟨[⟨"/w/a", ["/w/b"], .text "A"⟩], 0, _⟩ :=
    bind_eq_ok.mpr ⟨_, rfl, bind_eq_ok.mpr ⟨_, bind_eq_ok.mpr ⟨_, analyzed, rfl⟩, rfl⟩⟩
  exact bind_eq_ok.mpr ⟨_, rfl, bind_eq_ok.mpr ⟨_, rfl, bind_eq_ok.mpr ⟨_, bind_eq_ok.mpr ⟨_, added, rfl⟩, rfl⟩⟩⟩

theorem analyzeUnder_openingService (world : World) (directory : world.tree.isDirectory "/w" = true)
    (first : world.tree.isFile "/w/a" = true) (second : world.tree.isFile "/w/b" = true) (wanted : world.cancelled = []) :
    ∃ after, (openingService.analyzeUnder Saved.sampleHost "/w" (.list [.text "u"])).outcome world =
      (.ok Saved.sampleGraph, after) := by
  have located : Saved.sampleHost.locate "/w" = .ok "/w" := eq_ok_of_toOption (by decide +kernel)
  have made : assemble Saved.sampleHost "/w" [[⟨"/w/a", ["/w/b"], .text "A"⟩]] = .ok Saved.sampleGraph :=
    eq_ok_of_toOption (by decide +kernel)
  exact analyzeUnder_of_opened located (by simp [wanted]) directory (fun _ _ => rfl)
    (resultsOf_openingService first second) made

theorem mentioned_sampleGraph {file : String} (mentioned : Saved.sampleGraph.Mentions file) :
    file ∈ ["/w/a", "/w/b"] := by
  have held : ∀ row ∈ Saved.sampleGraph.upstream ++ Saved.sampleGraph.downstream,
      ∀ file ∈ row.1 :: row.2, file ∈ ["/w/a", "/w/b"] := by decide
  rcases mentioned with ⟨row, member, mentioned⟩ | ⟨row, member, mentioned⟩
  · exact held row (List.mem_append_left _ member) file (by simpa using mentioned)
  · exact held row (List.mem_append_right _ member) file (by simpa using mentioned)

theorem encodable_sampleGraph : Saved.Encodable Saved.sampleHost "/w" (.graph Saved.sampleGraph) := by
  intro text wrote
  apply Saved.wellFormed_write wrote
  intro file name mentioned relative
  have formed : ∀ file ∈ ["/w/a", "/w/b"],
      (Saved.sampleHost.relativeValue (.text file) (.text "/w")).toOption.all (fun name => decide (Text.WellFormed name)) := by
    decide +kernel
  have named := formed file (mentioned_sampleGraph mentioned)
  rw [relative] at named
  exact of_decide_eq_true named

theorem save_sampleGraph {world : World} (same : world.tree = Saved.sampleTree) :
    ∃ after, ((GraphStore.file "/w" sampleTrail).save Saved.sampleHost (.graph Saved.sampleGraph)).outcome world =
      (.ok (.file "/w" sampleTrail), after) ∧ after.tree.isFile sampleTrail.text = true := by
  have located : Saved.sampleHost.locate "/w" = .ok "/w" := eq_ok_of_toOption (by decide +kernel)
  have below : ∀ file ∈ ["/w/a", "/w/b"], (Saved.sampleHost.locate file).toOption = some file
      ∧ Path.isBelow "/w" file = true := by decide +kernel
  obtain ⟨text, wrote⟩ := Saved.write_below located fun file mentioned =>
    have ⟨placed, under⟩ := below file (mentioned_sampleGraph mentioned)
    ⟨eq_ok_of_toOption placed, under⟩
  have formed : Text.WellFormed text := encodable_sampleGraph text wrote
  let made : FileTree := ⟨(["w", ".typedep_graph", "metadata"], .directory) :: (["w", ".typedep_graph"], .directory)
    :: Saved.sampleTree.entries⟩
  have ready : FileTree.makeDirectories Saved.sampleHost.cwd sampleTrail.root sampleTrail.parent.names world.tree =
      (.ok (), made) := by
    show FileTree.makeDirectories "/w" "/" ["w", ".typedep_graph", "metadata"] _ = _
    have missing : Saved.sampleTree.makeDirectory (fullText "/w" ⟨"/", ["w", ".typedep_graph", "metadata"]⟩) =
      .error .missing := rfl
    unfold makeDirectories
    simp only [same, missing]
    rw [dif_neg (by simp)]
    unfold makeDirectories
    rfl
  have room : made.place (GraphStore.freshPath made sampleTrail.parent.text) =
      .ok ["w", ".typedep_graph", "metadata", GraphStore.temporaryName 0] := eq_ok_of_toOption (by decide +kernel)
  have aimed : made.place sampleTrail.text = .ok ["w", ".typedep_graph", "metadata", "graph.json"] :=
    eq_ok_of_toOption (by decide +kernel)
  have nothing : made.entry? ["w", ".typedep_graph", "metadata", "graph.json"] = none := by decide
  obtain ⟨tree, placed, sets⟩ := GraphStore.place_eq_ok Saved.sampleHost formed ready room aimed (by simp [nothing])
  obtain ⟨journal, saved⟩ := GraphStore.save_of_place ((writeOperand_graph _ Saved.sampleGraph "/w").trans wrote) placed
  obtain ⟨spot, there, _, content⟩ := sets
  refine ⟨_, saved, isFile_iff.mpr ⟨text.toUTF8, look_eq_ok.mpr ⟨spot, there, ?_⟩⟩⟩
  rw [content, if_pos rfl]

/-- The first run finds nothing, builds the graph and saves it; the second one finds it with no unit at all. -/
theorem loadOrBuild_finds_again_sample :
    Saved.sampleWorld.tree.isFile sampleTrail.text = false
    ∧ ∃ after, (openingService.loadOrBuild Saved.sampleHost (.text ".") (.list [.text "u"]) false).outcome Saved.sampleWorld =
        (.ok Saved.sampleGraph, after)
      ∧ after.tree.isFile sampleTrail.text = true
      ∧ ∀ later : World, later.tree = after.tree → ∃ again final,
        (openingService.loadOrBuild Saved.sampleHost (.text ".") (.list []) false).outcome later = (.ok again, final)
          ∧ again.same Saved.sampleGraph = true ∧ final.tree = later.tree ∧ final.calls = later.calls := by
  have located : Saved.sampleHost.locateValue (.text ".") = .ok "/w" := eq_ok_of_toOption (by decide +kernel)
  have fixed : Saved.sampleHost.canonical "/w" = "/w" := by decide +kernel
  have artifact : GraphStore.artifact openingService.settings "/w" = sampleTrail := by decide +kernel
  have stored : openingService.store Saved.sampleHost (.text "/w") = .ok (.file "/w" sampleTrail) := by
    rw [Service.store, GraphStore.openFile, locateRoot_text fixed, ← artifact]
    rfl
  have opened : Opened Saved.sampleHost openingService (.text ".") Saved.sampleWorld.tree "/w" _ :=
    ⟨located, by decide +kernel, stored⟩
  have quiet : openingService.builder.frontend.Quiet := fun _ _ => rfl
  have loads : ((GraphStore.file "/w" sampleTrail).load Saved.sampleHost).outcome Saved.sampleWorld =
      (.ok none, Saved.sampleWorld) := by
    rfl
  obtain ⟨analyzed, analysis⟩ := analyzeUnder_openingService Saved.sampleWorld (by decide +kernel)
    (by decide +kernel) (by decide +kernel) rfl
  have kept := keeps_analyzeUnder quiet Saved.sampleHost "/w" (.list [.text "u"]) Saved.sampleWorld
  rw [analysis] at kept
  obtain ⟨after, saving, there⟩ := save_sampleGraph kept
  have ran : (openingService.loadOrBuild Saved.sampleHost (.text ".") (.list [.text "u"]) false).outcome
      Saved.sampleWorld = (.ok Saved.sampleGraph, after) := by
    rw [loadOrBuild_unforced opened rfl, loads]
    show (openingService.rebuild Saved.sampleHost (.file "/w" sampleTrail) "/w" (.list [.text "u"])).outcome _ = _
    rw [rebuild, Run.outcome_refuse, if_neg (by decide), Run.outcome_bind, analysis]
    simp only [Run.outcome_bind, saving]
    rfl
  refine ⟨by decide +kernel, after, ran, there, fun later unchanged => ?_⟩
  have plain : ∀ file, Saved.sampleGraph.Mentions file → '\\' ∉ file.toList.drop "/w".toList.length := by
    have names : ∀ file ∈ ["/w/a", "/w/b"], '\\' ∉ file.toList.drop "/w".toList.length := by decide +kernel
    exact fun file mentioned => names file (mentioned_sampleGraph mentioned)
  exact loadOrBuild_finds_again rfl (Or.inr quiet) located (by decide) (by decide) ran plain unchanged rfl

end Service

end DeclGraph
