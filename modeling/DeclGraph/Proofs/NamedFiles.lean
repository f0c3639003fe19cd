import DeclGraph.CommandLine.Program
import DeclGraph.Proofs.AbsolutePaths
import DeclGraph.Proofs.FailedOperations
import DeclGraph.Proofs.NamedPlaces

/-!
The command line and the server name the same file. The command line joins the root and the file as they are written
and makes the whole canonical; the server makes its root canonical first. Both lead to the same place, so both show the
same dependencies. Where letter case makes no difference this stays so, for lowering acts on one name at a time.
-/

namespace DeclGraph

open DeclGraph.Path (Location Trail)

variable {host : Host} {root file : String}

namespace Host

theorem placeOf_joinTo (host : Host) (root file : String) :
    host.placeOf (Path.joinTo (host.canonical root) file)
      = if host.foldsCase then (((Location.ofText host.cwd).join root).join file).lowered
        else ((Location.ofText host.cwd).join root).join file := by
  have rooted := Path.isAbsolute_joinTo (Path.isAbsolute_canonical host root) file
  have fixed := Path.ofText_text (placeOf_proper host root)
  rw [placeOf, Location.join, if_pos rooted, Location.ofText_joinTo, canonical_eq, fixed, placeOf]
  split
  · exact Location.lowered_join _ file
  · rfl

end Host

namespace CommandLine

theorem resolveFile_eq (root file : String) : resolveFile root file = ((Trail.ofText root).join file).text := by
  by_cases relative : (Trail.ofText file).root = ""
  · simp [resolveFile, Trail.join, relative]
  · simp [resolveFile, Trail.join, Trail.append, relative]

theorem resolveFile_ne_empty (root file : String) : resolveFile root file ≠ "" := by
  simp only [resolveFile_eq, Trail.text]
  split
  · decide
  · assumption

theorem locate_resolveFile (host : Host) (root file : String) :
    host.locate (resolveFile root file) = .ok (host.canonical (resolveFile root file)) :=
  Host.locate_eq_ok.mpr ⟨resolveFile_ne_empty root file, rfl⟩

theorem canonical_resolveFile (host : Host) (root file : String) :
    host.canonical (resolveFile root file) = host.canonical (Path.joinTo (host.canonical root) file) := by
  have sound := (Trail.sound_ofText root).append (Trail.sound_ofText file)
  rw [Host.canonical_eq, Host.canonical_eq, Host.placeOf_joinTo, Host.placeOf, resolveFile_eq, Trail.join,
    Trail.join_text _ sound, Location.along_append, Trail.along_ofText, Trail.along_ofText]

theorem execute_inspect {service : Service} {units : List String} {text : String} {world after : World} :
    (execute host service (.inspect root file units)).outcome world = (.ok text, after) ↔
      ∃ graph, (service.loadOrBuild host (.text root) (.texts units) false).outcome world = (.ok graph, after)
        ∧ text = printed (.object (graph.contextOf (host.canonical (resolveFile root file))).fields) := by
  simp only [execute, Run.outcome_bind_eq_ok, Run.outcome_ofExcept, Run.outcome_pure, locate_resolveFile, Prod.mk.injEq,
    Except.ok.injEq]
  constructor
  · rintro ⟨graph, middle, loaded, _, _, ⟨rfl, rfl⟩, rfl, rfl⟩
    exact ⟨graph, loaded, rfl⟩
  · rintro ⟨graph, loaded, rfl⟩
    exact ⟨graph, after, loaded, _, after, ⟨rfl, rfl⟩, rfl, rfl⟩

end CommandLine

namespace Service

/-- A service builds or loads the same graph for a root and for its canonical path. -/
theorem loadOrBuild_canonical {service : Service} {units : Document} {graph : Graph} {world after : World}
    (given : root ≠ "") :
    (service.loadOrBuild host (.text (host.canonical root)) units false).outcome world = (.ok graph, after)
      ↔ (service.loadOrBuild host (.text root) units false).outcome world = (.ok graph, after) := by
  have located : GraphStore.locateRoot host (.text root) = .ok (host.canonical root) :=
    Host.locate_eq_ok.mpr ⟨given, rfl⟩
  have again := locateRoot_text (canonical_of_locateRoot located)
  simp only [loadOrBuild, Run.outcome_bind_eq_ok, locateRoot_eq_ok, located, again]

end Service

namespace ToolServer

/-- A file as a question names it. -/
def fileArguments (file : String) : Document := .object [("file_path", .text file)]

theorem root_of_create {units : Document} {operand : Except Fault Service} {server : ToolServer} {before after : World}
    (ran : (create host (.text root) units operand).outcome before = (.ok server, after)) :
    server.root = host.canonical root := by
  obtain ⟨place, _, located, ran⟩ := Run.outcome_bind_eq_ok.mp ran
  rw [Run.outcome_ofExcept] at located
  obtain ⟨_, rfl⟩ := Host.locate_eq_ok.mp (Prod.mk.inj located).1
  split at ran
  · cases ran
  · obtain ⟨_, _, _, ran⟩ := Run.outcome_bind_eq_ok.mp ran
    obtain ⟨_, _, _, ran⟩ := Run.outcome_bind_eq_ok.mp ran
    obtain ⟨_, _, _, ran⟩ := Run.outcome_bind_eq_ok.mp ran
    cases ran
    rfl

theorem create_texts (host : Host) (given : root ≠ "") (units : List String) (service : Service) (before : World) :
    ∃ after, (create host (.text root) (.texts units) (.ok service)).outcome before
      = (.ok ⟨host.canonical root, units.map .text, service, none⟩, after) := by
  have located : host.locateValue (.text root) = .ok (host.canonical root) := Host.locate_eq_ok.mpr ⟨given, rfl⟩
  have listed : (Document.texts units).elements? = some (units.map .text) := rfl
  rw [create, located, listed]
  exact ⟨_, rfl⟩

theorem resolveFile_eq_locate {server : ToolServer} (rooted : server.root = host.canonical root) (given : file ≠ "") :
    server.resolveFile host (.text file) = host.locate (CommandLine.resolveFile root file) := by
  have joined : Path.joinTo server.root file ≠ "" := by
    intro empty
    have absolute := Path.isAbsolute_joinTo (Path.isAbsolute_canonical host root) file
    rw [← rooted, empty] at absolute
    cases absolute
  have set : (Document.text file).isSet = true := by simp [Document.isSet, given]
  rw [CommandLine.locate_resolveFile, CommandLine.canonical_resolveFile, ← rooted]
  simp only [resolveFile, set, Bool.not_true, Bool.false_eq_true, if_false]
  exact Host.locate_eq_ok.mpr ⟨joined, rfl⟩

/-- What the tool for one file replies, and what the command line shows of the file: the same, from one graph in any
surroundings, and also where the graph is yet to be loaded or built in the same surroundings. -/
structure ShowsAlike (host : Host) (service : Service) (root file : String) (units : List String) (server : ToolServer)
    (place : String) : Prop where
  graph : ∀ graph world shown elsewhere,
    (service.loadOrBuild host (.text root) (.texts units) false).outcome world = (.ok graph, shown) →
      (CommandLine.execute host service (.inspect root file units)).outcome world
          = (.ok (CommandLine.printed (.object (graph.contextOf place).fields)), shown)
        ∧ ∃ notes, { server with graph := some graph }.call host "get_file_dependencies" (fileArguments file) elsewhere
          = (⟨notes, .ok (.object (graph.contextOf place).fields)⟩, { server with graph := some graph }, elsewhere)
  surroundings : ∀ world shown text,
    (CommandLine.execute host service (.inspect root file units)).outcome world = (.ok text, shown)
      ↔ ∃ graph notes document, text = CommandLine.printed document
        ∧ server.call host "get_file_dependencies" (fileArguments file) world
          = (⟨notes, .ok document⟩, { server with graph := some graph }, shown)

section Calls

variable {server kept : ToolServer} {place : String} {document : Document} {world after : World} {graph : Graph}

theorem contextOf_of_resolved (named : server.resolveFile host (.text file) = .ok place) (graph : Graph) :
    server.contextOf host graph (.text file) = .ok (.object (graph.contextOf place).fields) :=
  bind_eq_ok.mpr ⟨place, named, rfl⟩

theorem call_of_obtained (obtained : (server.obtain host).outcome world = (.ok (graph, kept), after))
    (answered : server.contextOf host graph (.text file) = .ok document) :
    ∃ notes, server.call host "get_file_dependencies" (fileArguments file) world = (⟨notes, .ok document⟩, kept, after) := by
  have named : (fileArguments file).field "file_path" = .text file := rfl
  simp only [call, obtained, named, answered]
  exact ⟨_, rfl⟩

theorem obtained_of_call {notes : List Note} (named : server.resolveFile host (.text file) = .ok place)
    (called : server.call host "get_file_dependencies" (fileArguments file) world = (⟨notes, .ok document⟩, kept, after)) :
    ∃ graph, (server.obtain host).outcome world = (.ok (graph, kept), after)
      ∧ document = .object (graph.contextOf place).fields := by
  rcases obtained : (server.obtain host).outcome world with ⟨fault | ⟨graph, holder⟩, later⟩
  · simp only [call, obtained, Prod.mk.injEq, Reply.mk.injEq, reduceCtorEq, and_false, false_and] at called
  · obtain ⟨others, answered⟩ := call_of_obtained obtained (contextOf_of_resolved named graph)
    rw [answered] at called
    simp only [Prod.mk.injEq, Reply.mk.injEq, Except.ok.injEq] at called
    obtain ⟨⟨_, rfl⟩, rfl, rfl⟩ := called
    exact ⟨graph, rfl, rfl⟩

theorem obtain_fresh (fresh : server.graph = none) : (server.obtain host).outcome world = (.ok (graph, kept), after) ↔
    (server.service.loadOrBuild host (.text server.root) (.list server.units) false).outcome world = (.ok graph, after)
      ∧ kept = { server with graph := some graph } := by
  simp only [obtain, fresh, Run.outcome_bind_eq_ok, Run.outcome_pure, Prod.mk.injEq, Except.ok.injEq]
  constructor
  · rintro ⟨_, _, loaded, ⟨rfl, rfl⟩, rfl⟩
    exact ⟨loaded, rfl⟩
  · rintro ⟨loaded, rfl⟩
    exact ⟨graph, after, loaded, ⟨rfl, rfl⟩, rfl⟩

end Calls

theorem showsAlike_of_fresh {service : Service} {units : List String} {server : ToolServer} (rootGiven : root ≠ "")
    (fileGiven : file ≠ "") (rooted : server.root = host.canonical root) (listed : Document.list server.units = .texts units)
    (served : server.service = service) (fresh : server.graph = none) :
    ShowsAlike host service root file units server (host.canonical (CommandLine.resolveFile root file)) := by
  have named (graph : Option Graph) : { server with graph }.resolveFile host (.text file)
      = .ok (host.canonical (CommandLine.resolveFile root file)) :=
    (resolveFile_eq_locate rooted fileGiven).trans (CommandLine.locate_resolveFile host root file)
  have obtained {world after : World} {graph : Graph} {kept : ToolServer} :
      (server.obtain host).outcome world = (.ok (graph, kept), after)
        ↔ (service.loadOrBuild host (.text root) (.texts units) false).outcome world = (.ok graph, after)
          ∧ kept = { server with graph := some graph } := by
    rw [obtain_fresh fresh, rooted, listed, served, Service.loadOrBuild_canonical rootGiven]
  constructor
  · intro graph world shown elsewhere loaded
    exact ⟨CommandLine.execute_inspect.mpr ⟨graph, loaded, rfl⟩,
      call_of_obtained rfl (contextOf_of_resolved (named (some graph)) graph)⟩
  · intro world shown text
    have resolved := named server.graph
    rw [CommandLine.execute_inspect]
    constructor
    · rintro ⟨graph, loaded, rfl⟩
      obtain ⟨notes, called⟩ := call_of_obtained (obtained.mpr ⟨loaded, rfl⟩) (contextOf_of_resolved resolved graph)
      exact ⟨graph, notes, _, rfl, called⟩
    · rintro ⟨graph, notes, document, rfl, called⟩
      obtain ⟨found, ran, rfl⟩ := obtained_of_call resolved called
      exact ⟨found, (obtained.mp ran).1, rfl⟩

/-- The command line and every server of a root name the same file, however root and file are written, and show the
same dependencies of it. -/
theorem answers_as_shown (host : Host) (rootGiven : root ≠ "") (fileGiven : file ≠ "") :
    ∃ place, host.locate (CommandLine.resolveFile root file) = .ok place
      ∧ (∀ units operand server before after,
        (create host (.text root) units operand).outcome before = (.ok server, after) →
          server.resolveFile host (.text file) = .ok place)
      ∧ ∀ (service : Service) (units : List String) (before : World), ∃ server after,
        (create host (.text root) (.texts units) (.ok service)).outcome before = (.ok server, after)
          ∧ ShowsAlike host service root file units server place := by
  refine ⟨_, CommandLine.locate_resolveFile host root file, fun units operand server before after ran => ?_,
    fun service units before => ?_⟩
  · rw [resolveFile_eq_locate (root_of_create ran) fileGiven, CommandLine.locate_resolveFile]
  · obtain ⟨after, ran⟩ := create_texts host rootGiven units service before
    exact ⟨_, after, ran, showsAlike_of_fresh rootGiven fileGiven rfl rfl rfl rfl⟩

def foldingHost : Host := { Saved.sampleHost with foldsCase := true }

/-- A detour on the way to the root and capitals in the name of the file. -/
theorem answers_as_shown_folded : foldingHost.locate (CommandLine.resolveFile "Sub//.." "./A") = .ok "/w/a"
    ∧ ∀ (service : Service) (units : List String) (before : World), ∃ server after,
      (create foldingHost (.text "Sub//..") (.texts units) (.ok service)).outcome before = (.ok server, after)
        ∧ ShowsAlike foldingHost service "Sub//.." "./A" units server "/w/a" := by
  obtain ⟨place, located, _, served⟩ := @answers_as_shown "Sub//.." "./A" foldingHost (by decide) (by decide)
  have found : foldingHost.locate (CommandLine.resolveFile "Sub//.." "./A") = .ok "/w/a" :=
    eq_ok_of_toOption (by decide +kernel)
  obtain rfl : place = "/w/a" := Except.ok.inj (located.symm.trans found)
  exact ⟨found, served⟩

end ToolServer

end DeclGraph
