import DeclGraph.Manifest.Frontend
import DeclGraph.Frontend.Table
import DeclGraph.Proofs.SafeSaving
import DeclGraph.Proofs.SavedGraph
import DeclGraph.Service

/-!
What is left of an operation that fails. Only saving writes to the file tree, and it comes last, so
whatever fails before it leaves the tree as it is.
-/

namespace DeclGraph

open Run FileTree

section Frontends

/-- Opening a unit does not change the file tree. -/
def Frontend.Quiet (frontend : Frontend) : Prop := ∀ path, Keeps World.tree (frontend.openUnit path)

theorem Manifest.quiet_frontend (host : Host) : (frontend host).Quiet := by
  intro given
  apply Keeps.bind (.ofExcept _)
  intro path
  apply Keeps.bind .tree
  intro tree
  apply Keeps.refuse
  apply Keeps.bind .tree
  intro again
  apply Keeps.bind (.onTree _ _)
  intro bytes
  apply Keeps.bind (.ofExcept _)
  intro data
  apply Keeps.bind (.ofExcept _)
  intro unit
  apply Keeps.bind (.ofExcept _)
  intro name
  exact .pure _

theorem Frontend.Table.keeps_cancelNamed (name : String) : Keeps World.tree (cancelNamed name) := by
  have asked : Keeps World.tree (get : Run World) := fun _ => rfl
  apply Keeps.bind asked
  intro world
  split
  · exact fun _ => rfl
  · exact .throw _

theorem Frontend.Table.keeps_openPlan (plans : List Plan) (path : Document) :
    Keeps World.tree (openPlan plans path) := by
  rw [openPlan]
  split
  · exact .throw _
  · split
    · apply Keeps.bind (keeps_cancelNamed _)
      intro done
      exact .pure _
    · exact .pure _

theorem Frontend.Table.quiet_ofDocument {name : String} {document : Document} {frontend : Frontend}
    (made : ofDocument name document = .ok frontend) : frontend.Quiet := by
  obtain ⟨table, _, same⟩ := bind_eq_ok.mp made
  cases same
  exact keeps_openPlan _

end Frontends

namespace Service

variable {host : Host} {service : Service}

theorem keeps_checkCancelled (service : Service) : Keeps World.tree service.checkCancelled := by
  apply Keeps.bind (.isCancelled _)
  intro stopped
  split
  · exact .throw _
  · exact .pure _

theorem keeps_directDependencies (builder : Builder) (host : Host) (thread : String) (unit : CompilationUnit) :
    Keeps World.tree (builder.directDependencies host thread unit) := by
  apply Keeps.bind .tree
  intro tree
  apply Keeps.bind (.ofExcept _)
  intro markup
  apply Keeps.bind
  · apply Keeps.bind (.note _)
    intro done
    exact .ofExcept _
  · intro files
    apply Keeps.bind (.ofExcept _)
    intro progress
    apply Keeps.bind (.record (fun _ _ => rfl) _)
    intro done
    exact .pure _

theorem keeps_analyzeUnit (host : Host) (service : Service) (unit : UnitOperand) :
    Keeps World.tree (service.analyzeUnit host unit) := by
  apply Keeps.bind (keeps_checkCancelled service)
  intro done
  cases unit with
  | unit value => exact keeps_directDependencies _ _ _ _
  | other value => exact .throw _

theorem keeps_buildUnder (host : Host) (service : Service) (root : String) (units : List UnitOperand) :
    Keeps World.tree (service.buildUnder host root units) := by
  apply Keeps.refuse
  apply Keeps.bind (keeps_checkCancelled service)
  intro done
  split
  · exact .pure _
  · apply Keeps.bind (.mapM fun unit _ => keeps_analyzeUnit host service unit)
    intro results
    apply Keeps.bind (.ofExcept _)
    intro graph
    apply Keeps.bind (.log (fun _ _ => rfl) _ _ _)
    intro done
    exact .pure _

theorem keeps_locateRoot {γ : Type} {view : World → γ} (host : Host) (root : Document) :
    Keeps view (locateRoot host root) := by
  apply Keeps.bind (.ofExcept _)
  intro place
  apply Keeps.bind .tree
  intro tree
  split
  · exact .pure _
  · exact .throw _

theorem keeps_build (host : Host) (service : Service) (root : Document) (units : Option (List UnitOperand)) :
    Keeps World.tree (service.build host root units) := by
  apply Keeps.bind (keeps_locateRoot host root)
  intro place
  cases units with
  | none => exact .throw _
  | some units => exact keeps_buildUnder host service place units

theorem keeps_openUnit (quiet : service.builder.frontend.Quiet) (path : Document) :
    Keeps World.tree (service.openUnit path) := by
  apply Keeps.bind (keeps_checkCancelled service)
  intro done
  apply Keeps.bind (.log (fun _ _ => rfl) _ _ _)
  intro done
  apply Keeps.bind (.note _)
  intro done
  exact quiet path

theorem keeps_analyzeUnder (quiet : service.builder.frontend.Quiet) (host : Host) (root : String)
    (units : Document) : Keeps World.tree (service.analyzeUnder host root units) := by
  rw [analyzeUnder]
  split
  · exact .throw _
  · apply Keeps.bind (.mapM fun path _ => keeps_openUnit quiet path)
    intro opened
    exact keeps_build _ _ _ _

theorem keeps_restore {γ : Type} {view : World → γ} (apart : ∀ world journal, view { world with journal } = view world)
    (host : Host) (text root : Document) : Keeps view (Saved.restore host text root) := by
  apply Keeps.bind .tree
  intro tree
  apply Keeps.bind (.ofExcept _)
  intro found
  split
  · exact .pure _
  · apply Keeps.bind (.log apart _ _ _)
    intro done
    exact .pure _

theorem keeps_load {γ : Type} {view : World → γ} (apart : ∀ world journal, view { world with journal } = view world)
    (host : Host) (store : GraphStore) : Keeps view (store.load host) := by
  unfold GraphStore.load
  split
  · exact .pure _
  · exact keeps_restore apart _ _ _
  · apply Keeps.bind .tree
    intro tree
    apply Keeps.bind (.onTree _ _)
    intro entry
    split
    · split
      · exact .throw _
      · apply Keeps.bind (keeps_restore apart _ _ _)
        intro found
        split
        · apply Keeps.bind (.log apart _ _ _)
          intro done
          exact .pure _
        · exact .pure _
    · exact .pure _

theorem locateRoot_eq_ok {root : Document} {place : String} {world after : World} :
    (locateRoot host root).outcome world = (.ok place, after) ↔
      GraphStore.locateRoot host root = .ok place ∧ world.tree.isDirectory place = true ∧ after = world := by
  rw [locateRoot, outcome_bind_eq_ok]
  constructor
  · rintro ⟨found, middle, located, rest⟩
    rw [outcome_ofExcept] at located
    obtain ⟨given, rfl⟩ := Prod.mk.inj located
    simp only [outcome_bind, outcome_tree] at rest
    split at rest
    · next directory =>
      cases rest
      exact ⟨given, directory, rfl⟩
    · cases rest
  · rintro ⟨located, directory, rfl⟩
    refine ⟨place, after, by rw [outcome_ofExcept, located], ?_⟩
    simp only [outcome_bind, outcome_tree]
    rw [if_pos directory]
    rfl

theorem locateValue_of_located {root : Document} {place : String}
    (located : GraphStore.locateRoot host root = .ok place) : host.locateValue root = .ok place := by
  rw [GraphStore.locateRoot] at located
  split at located
  · cases located
  · exact located

theorem canonical_of_locateRoot {root : Document} {place : String}
    (located : GraphStore.locateRoot host root = .ok place) : host.canonical place = place := by
  obtain ⟨spelled, _, _, rfl⟩ := Host.locateValue_eq_ok (locateValue_of_located located)
  exact Host.canonical_canonical host host rfl spelled

theorem locateRoot_text {place : String} (fixed : host.canonical place = place) :
    GraphStore.locateRoot host (.text place) = .ok place := by
  have present : place ≠ "" := by
    rintro rfl
    obtain ⟨location, _, text⟩ := Host.isCanonical_of_fixed fixed
    have rooted := Path.isAbsolute_text location
    rw [text] at rooted
    exact absurd rooted (by decide)
  exact Host.locate_eq_ok.mpr ⟨present, fixed⟩

theorem store_text {place : String} (fixed : host.canonical place = place) :
    service.store host (.text place) = .ok (if service.settings.enableGraphCache
      then .file place (GraphStore.artifact service.settings place) else .memory place none) := by
  rw [Service.store, GraphStore.openFile, GraphStore.openMemory, locateRoot_text fixed]
  split
  · rfl
  · rfl

theorem store_of_located {place : String} (fixed : host.canonical place = place) {store : GraphStore}
    (given : service.store host (.text place) = .ok store) :
    store = .memory place none ∨ store = .file place (GraphStore.artifact service.settings place) := by
  cases (store_text fixed).symm.trans given
  split
  · exact Or.inr rfl
  · exact Or.inl rfl

structure Opened (host : Host) (service : Service) (root : Document) (tree : FileTree) (place : String)
    (store : GraphStore) : Prop where
  located : GraphStore.locateRoot host root = .ok place
  directory : tree.isDirectory place = true
  stored : service.store host (.text place) = .ok store

/-- Either something fails and the tree is as it was, or the saved graph is given, or a graph is built anew in
a tree that is as it was. -/
theorem loadOrBuild_outcome (host : Host) (service : Service) (root units : Document) (force : Bool) (world : World) :
    (∃ fault after, (service.loadOrBuild host root units force).outcome world = (.error fault, after)
        ∧ after.tree = world.tree)
      ∨ ∃ place store loaded, Opened host service root world.tree place store
        ∧ ((∃ found journal, (store.load host).outcome world = (.ok (some found), loaded)
            ∧ (service.loadOrBuild host root units force).outcome world = (.ok found, { loaded with journal }))
          ∨ (loaded.tree = world.tree ∧ (service.loadOrBuild host root units force).outcome world =
            (service.rebuild host store place units).outcome loaded)) := by
  -- Until a graph is built the tree is only read, so whatever fails before that leaves it as it was.
  have kept : ((locateRoot host root).outcome world).2.tree = world.tree := keeps_locateRoot host root world
  rcases entered : (locateRoot host root).outcome world with ⟨fault | place, after⟩
  · left
    rw [entered] at kept
    refine ⟨fault, after, ?_, kept⟩
    rw [loadOrBuild, outcome_bind, entered]
  · obtain ⟨located, directory, rfl⟩ := locateRoot_eq_ok.mp entered
    generalize ran : (service.loadOrBuild host root units force).outcome after = final
    rw [loadOrBuild, outcome_bind, entered] at ran
    simp only [outcome_refuse, outcome_bind, outcome_ofExcept] at ran
    by_cases null : units.isNull = true
    · left
      rw [if_pos null] at ran
      exact ⟨_, after, ran.symm, rfl⟩
    · rw [if_neg null] at ran
      cases stored : service.store host (.text place) with
      | error fault =>
        left
        rw [stored] at ran
        exact ⟨fault, after, ran.symm, rfl⟩
      | ok store =>
        rw [stored] at ran
        simp only at ran
        have opened : Opened host service root after.tree place store := ⟨located, directory, stored⟩
        by_cases forced : force = true
        · rw [if_pos forced] at ran
          exact Or.inr ⟨place, store, after, opened, Or.inr ⟨rfl, ran.symm⟩⟩
        · rw [if_neg forced] at ran
          have still : ((store.load host).outcome after).2.tree = after.tree :=
            keeps_load (fun _ _ => rfl) host store after
          rw [outcome_bind] at ran
          rcases read : (store.load host).outcome after with ⟨fault | _ | found, loaded⟩
          · left
            rw [read] at ran still
            exact ⟨fault, loaded, ran.symm, still⟩
          · rw [read] at ran still
            exact Or.inr ⟨place, store, loaded, opened, Or.inr ⟨still, ran.symm⟩⟩
          · rw [read] at ran
            exact Or.inr ⟨place, store, loaded, opened, Or.inl ⟨found, _, read, ran.symm⟩⟩

theorem rooted_of_located {root : Document} {place : String} (located : GraphStore.locateRoot host root = .ok place)
    (settings : Settings) : (GraphStore.artifact settings place).root = "/"
      ∨ (GraphStore.artifact settings place).root = "//" :=
  GraphStore.rooted_artifact settings (Host.isCanonical_of_fixed (canonical_of_locateRoot located))

theorem keeps_save_memory (host : Host) (root : String) (saved : Option String) (graph : GraphOperand) :
    Keeps World.tree ((GraphStore.memory root saved).save host graph) := by
  apply Keeps.bind (.ofExcept _)
  intro text
  exact .pure _

theorem writeOperand_graph (host : Host) (graph : Graph) (root : String) :
    Saved.writeOperand host (.graph graph) (.text root) = Saved.write host graph (.text root) := rfl

theorem rebuild_outcome (quiet : service.builder.frontend.Quiet) {root : Document} {place : String} {store : GraphStore}
    {tree : FileTree} (opened : Opened host service root tree place store) (units : Document) (loaded : World) :
    (∃ fault after, (service.rebuild host store place units).outcome loaded = (.error fault, after)
        ∧ LeavesFiles loaded.tree after.tree (GraphStore.artifact service.settings place).parent)
      ∨ ∃ graph analyzed after, (service.analyzeUnder host place units).outcome loaded = (.ok graph, analyzed)
        ∧ analyzed.tree = loaded.tree
        ∧ (service.rebuild host store place units).outcome loaded = (.ok graph, after)
        ∧ ((store = .memory place none ∧ after.tree = loaded.tree)
          ∨ (store = .file place (GraphStore.artifact service.settings place)
            ∧ ∃ text bytes, Saved.write host graph (.text place) = .ok text ∧ Text.toBytes text = .ok bytes
              ∧ ChangesOnly loaded.tree after.tree (GraphStore.artifact service.settings place) bytes)) := by
  have unchanged {after : World} (same : after.tree = loaded.tree) :
      LeavesFiles loaded.tree after.tree (GraphStore.artifact service.settings place).parent := by
    rw [same]
    exact leavesFiles_of_adds (.refl _ _)
  generalize ran : (service.rebuild host store place units).outcome loaded = final
  rw [rebuild] at ran
  simp only [outcome_refuse, outcome_bind] at ran
  by_cases unset : (!units.isSet) = true
  · rw [if_pos unset] at ran
    exact Or.inl ⟨_, loaded, ran.symm, unchanged rfl⟩
  · rw [if_neg unset] at ran
    have kept := keeps_analyzeUnder quiet host place units loaded
    rcases built : (service.analyzeUnder host place units).outcome loaded with ⟨fault | graph, analyzed⟩
    · rw [built] at ran kept
      exact Or.inl ⟨fault, analyzed, ran.symm, unchanged kept⟩
    · rw [built] at ran kept
      simp only at ran kept
      -- A frontend that is quiet has left the tree alone, so what saving changes is changed in the tree that was loaded.
      rcases store_of_located (canonical_of_locateRoot opened.located) opened.stored with rfl | rfl
      · have still := keeps_save_memory host place none (.graph graph) analyzed
        rcases written : ((GraphStore.memory place none).save host (.graph graph)).outcome analyzed with ⟨fault | saved, after⟩
        · rw [written] at ran still
          exact Or.inl ⟨fault, after, ran.symm, unchanged (still.trans kept)⟩
        · rw [written] at ran still
          exact Or.inr ⟨graph, analyzed, after, rfl, kept, ran.symm, Or.inl ⟨rfl, still.trans kept⟩⟩
      · obtain ⟨text, bytes, after, journal, wrote, encoded, written, changed⟩ | ⟨fault, after, written, left⟩ :=
          GraphStore.save_outcome host place (rooted_of_located opened.located service.settings) (.graph graph) analyzed
        · rw [written] at ran
          rw [writeOperand_graph] at wrote
          rw [kept] at changed
          exact Or.inr ⟨graph, analyzed, _, rfl, kept, ran.symm, Or.inr ⟨rfl, text, bytes, wrote, encoded, changed⟩⟩
        · rw [written] at ran
          rw [kept] at left
          exact Or.inl ⟨fault, _, ran.symm, left⟩

/-- What saving, or loading or building, does to the file tree: all but the artifact is left, and so is the
artifact if the operation fails. The text may have no bytes; and if anything else refuses the write, however much of it
was written, the same holds of putting the file in place. A move that is refused for some other reason is as a write
that fails at its end. -/
theorem failure_leaves_files {host : Host} {service : Service} {given : Document} {place : String}
    {trail : Path.Trail} (opened : GraphStore.openFile host service.settings given = .ok (.file place trail))
    (quiet : service.builder.frontend.Quiet) (graph : GraphOperand) (root units : Document) (force : Bool)
    (world : World) :
    (match ((GraphStore.file place trail).save host graph).outcome world with
      | (.error _, after) => LeavesFiles world.tree after.tree trail.parent
      | (.ok _, after) => ∃ text bytes, Saved.writeOperand host graph (.text place) = .ok text
        ∧ Text.toBytes text = .ok bytes ∧ ChangesOnly world.tree after.tree trail bytes)
    ∧ (∀ (write : String → Run Unit) (good : ByteArray → Prop), GraphStore.Fills write good →
      match (GraphStore.placeWith host trail write).outcome world with
      | (.error _, after) => LeavesFiles world.tree after.tree trail.parent
      | (.ok _, after) => ∃ bytes, good bytes ∧ ChangesOnly world.tree after.tree trail bytes)
    ∧ match (service.loadOrBuild host root units force).outcome world with
      | (.error _, after) => after.tree = world.tree ∨ ∃ below, host.locateValue root = .ok below
        ∧ LeavesFiles world.tree after.tree (GraphStore.artifact service.settings below).parent
      | (.ok built, after) => after.tree = world.tree ∨ ∃ below text bytes, host.locateValue root = .ok below
        ∧ Saved.write host built (.text below) = .ok text ∧ Text.toBytes text = .ok bytes
        ∧ ChangesOnly world.tree after.tree (GraphStore.artifact service.settings below) bytes := by
  obtain ⟨found, located, same⟩ := bind_eq_ok.mp opened
  cases same
  have rooted := rooted_of_located located service.settings
  refine ⟨?_, fun write good fills => ?_, ?_⟩
  · obtain ⟨text, bytes, after, journal, wrote, encoded, written, changed⟩ | ⟨fault, after, written, left⟩ :=
      GraphStore.save_outcome host place rooted graph world
    · rw [written]
      exact ⟨text, bytes, wrote, encoded, changed⟩
    · rw [written]
      exact left
  · obtain ⟨made, after, adds, ⟨ran, bytes, isGood, sets⟩ | ⟨⟨fault, ran⟩, same⟩⟩ :=
      GraphStore.placeWith_outcome host rooted fills world
    · rw [ran]
      exact ⟨bytes, isGood, changesOnly_of_sets adds sets⟩
    · rw [ran]
      exact leavesFiles_of_adds (adds.of_sameEntries same)
  · obtain ⟨fault, after, ran, same⟩ | ⟨below, store, loaded, entered, cached | ⟨same, ran⟩⟩ :=
      loadOrBuild_outcome host service root units force world
    · rw [ran]
      exact Or.inl same
    · obtain ⟨found, journal, read, ran⟩ := cached
      have kept : ((store.load host).outcome world).2.tree = world.tree := keeps_load (fun _ _ => rfl) host store world
      rw [read] at kept
      rw [ran]
      exact Or.inl kept
    · have placed := locateValue_of_located entered.located
      obtain ⟨fault, after, built, left⟩
        | ⟨graph, analyzed, after, _, _, built, ⟨_, still⟩ | ⟨_, text, bytes, wrote, encoded, changed⟩⟩ :=
        rebuild_outcome quiet entered units loaded
      · rw [ran, built]
        rw [same] at left
        exact Or.inr ⟨below, placed, left⟩
      · rw [ran, built]
        exact Or.inl (still.trans same)
      · rw [ran, built]
        rw [same] at changed
        exact Or.inr ⟨below, text, bytes, placed, wrote, encoded, changed⟩

def plainWorld : World where
  tree := ⟨[(["w"], .directory), (["w", "kept"], .file "kept".toUTF8)]⟩

/-- Its one file is named by a byte that is not UTF-8. -/
def unwrittenGraph : Graph :=
  let file := "/w/" ++ String.singleton (Text.ofCode 0xdc80)
  ⟨[(file, [])], [(file, [])]⟩

def sampleService : Service := ⟨{ path := "" }, ⟨Manifest.frontend Saved.sampleHost, [], none⟩, 0⟩

def sampleTrail : Path.Trail := ⟨"/", ["w", ".typedep_graph", "metadata", "graph.json"]⟩

/-- Saving fails when its temporary file has been made and is to be written; building fails for want of the unit. -/
theorem failure_leaves_files_unwritten :
    (∃ fault after, ((GraphStore.file "/w" sampleTrail).save Saved.sampleHost (.graph unwrittenGraph)).outcome
        plainWorld = (.error fault, after) ∧ fault.kind = .unencodable
        ∧ LeavesFiles plainWorld.tree after.tree sampleTrail.parent)
      ∧ ∃ fault after, (sampleService.loadOrBuild Saved.sampleHost (.text "/w") (.list [.text "/w/u.json"]) true).outcome
          plainWorld = (.error fault, after)
        ∧ (after.tree = plainWorld.tree ∨ ∃ below, Saved.sampleHost.locateValue (.text "/w") = .ok below
          ∧ LeavesFiles plainWorld.tree after.tree
            (GraphStore.artifact sampleService.settings below).parent) := by
  have opened : GraphStore.openFile Saved.sampleHost sampleService.settings (.text "/w") =
      .ok (.file "/w" sampleTrail) := by
    have fixed : Saved.sampleHost.canonical "/w" = "/w" := by decide +kernel
    have artifact : GraphStore.artifact sampleService.settings "/w" = sampleTrail := by decide +kernel
    rw [GraphStore.openFile, locateRoot_text fixed, ← artifact]
    rfl
  obtain ⟨saving, _, building⟩ := failure_leaves_files opened (Manifest.quiet_frontend _) (.graph unwrittenGraph)
    (.text "/w") (.list [.text "/w/u.json"]) true plainWorld
  constructor
  · have fails : ((((GraphStore.file "/w" sampleTrail).save Saved.sampleHost (.graph unwrittenGraph)).outcome
        plainWorld).1.mapError Fault.kind).map (fun _ => ()) = .error .unencodable := by decide +kernel
    split at saving
    · next fault after ran =>
      rw [ran] at fails
      exact ⟨fault, after, ran, Except.error.inj fails, saving⟩
    · next ran =>
      rw [ran] at fails
      cases fails
  · have fails : ((sampleService.loadOrBuild Saved.sampleHost (.text "/w") (.list [.text "/w/u.json"]) true).outcome
        plainWorld).1.isOk = false := by decide +kernel
    split at building
    · next fault after ran => exact ⟨fault, after, ran, building⟩
    · next ran =>
      rw [ran] at fails
      cases fails

end Service

end DeclGraph
