import DeclGraph.Proofs.DirectDependencies
import DeclGraph.Proofs.UnitedGraphs

/-!
What a build gives, whatever the frontend reports. Every path in a result was looked up in the file tree, so
that results and graphs name nothing but files that are there, by their canonical paths, below the root.
-/

namespace DeclGraph.Builder

open DeclGraph.Graph

namespace Context

variable {context : Context}

theorem standsFor_there {file : String} (there : There context.host context.tree file) :
    context.StandsFor (.text file) file := by
  refine ⟨file, rfl, bind_eq_ok.mpr ⟨file, there.1, ?_⟩⟩
  rw [if_pos there.2]
  rfl

theorem standsFor_unique {value : Document} {file other : String} (stands : context.StandsFor value file)
    (also : context.StandsFor value other) : file = other := by
  obtain ⟨path, given, resolved⟩ := stands
  obtain ⟨otherPath, otherGiven, otherResolved⟩ := also
  cases given.symm.trans otherGiven
  exact Option.some.inj (Except.ok.inj (resolved.symm.trans otherResolved))

def ResultThere (host : Host) (tree : FileTree) (result : FileDependencies) : Prop :=
  There host tree result.file ∧ ∀ dependency ∈ result.dependencies, There host tree dependency

theorem there_of_gives {declaration : TypeDeclaration} {result : FileDependencies}
    (gives : context.Gives declaration result) : ResultThere context.host context.tree result := by
  obtain ⟨ref, reported, ⟨_, _, _, own⟩, _, members⟩ := gives
  refine ⟨there_of_resolve own, ?_⟩
  intro dependency member
  obtain ⟨_, _, _, _, _, found⟩ := (members dependency).mp member
  exact there_of_resolve found

/-- What an analysis remembers is right, and what it gives is there. -/
structure Sound (context : Context) (progress : Progress) : Prop where
  remembers : context.Remembers progress.cache
  there : ∀ result ∈ progress.results, ResultThere context.host context.tree result

theorem sound_analyze {files : List String} {progress : Progress} (ran : context.analyze files = .ok progress) :
    context.Sound progress := by
  have covers := gives_analyze ran
  refine ⟨covers.remembers, ?_⟩
  intro result listed
  obtain ⟨declaration, _, gives⟩ := covers.sound result listed
  exact there_of_gives gives

end Context

open Context

theorem there_of_resultsOf {builder : Builder} {host : Host} {tree : FileTree} {unit : CompilationUnit}
    {results : List FileDependencies} (found : builder.resultsOf host tree unit = .ok results) :
    ∀ result ∈ results, ResultThere host tree result := by
  obtain ⟨markup, _, found⟩ := bind_eq_ok.mp found
  obtain ⟨files, _, found⟩ := bind_eq_ok.mp found
  obtain ⟨progress, ran, same⟩ := bind_eq_ok.mp found
  cases same
  exact (sound_analyze ran).there

theorem canonical_of_there {host : Host} {tree : FileTree} {result : FileDependencies}
    (there : ResultThere host tree result) : CanonicalResult host result :=
  ⟨there.1.1, fun dependency member => (there.2 dependency member).1⟩

end DeclGraph.Builder

namespace DeclGraph.Service

open DeclGraph.Graph Builder.Context

variable {host : Host} {service : Service} {root : String}

/-- What analysing a unit gives while nobody asks the service to stop. -/
def resultsOf (host : Host) (service : Service) (tree : FileTree) : UnitOperand → Except Fault (List FileDependencies)
  | .unit unit => service.builder.resultsOf host tree unit
  | .other value => .error (.lacks value.kindWord "path")

theorem there_of_resultsOf {tree : FileTree} {unit : UnitOperand} {results : List FileDependencies}
    (found : resultsOf host service tree unit = .ok results) : ∀ result ∈ results, ResultThere host tree result := by
  cases unit with
  | unit value => exact Builder.there_of_resultsOf found
  | other value => cases found

theorem checkCancelled_outcome (service : Service) (world : World) : service.checkCancelled.outcome world =
    (if service.number ∈ world.cancelled then .error .cancelled else .ok (), world) := by
  rw [checkCancelled, Run.outcome_bind, Run.outcome_isCancelled]
  by_cases stopped : service.number ∈ world.cancelled
  · simp [stopped, Run.outcome_throw]
  · simp [stopped, Run.outcome_pure]

theorem world_of_checkCancelled {world after : World} {result : Except Fault Unit}
    (checked : service.checkCancelled.outcome world = (result, after)) : after = world := by
  rw [checkCancelled_outcome] at checked
  exact (Prod.mk.inj checked).2.symm

theorem requested_of_checkCancelled {world after : World} {fault : Fault}
    (checked : service.checkCancelled.outcome world = (.error fault, after)) :
    fault = .cancelled ∧ service.number ∈ world.cancelled := by
  rw [checkCancelled_outcome] at checked
  have failed := (Prod.mk.inj checked).1
  split at failed
  · next requested => exact ⟨(Except.error.inj failed).symm, requested⟩
  · cases failed

def examine (host : Host) (service : Service) : UnitOperand → Run (List FileDependencies)
  | .unit unit => service.builder.directDependencies host workerName unit
  | .other value => throw (.lacks value.kindWord "path")

theorem analyzeUnit_eq (host : Host) (service : Service) (unit : UnitOperand) :
    service.analyzeUnit host unit = (service.checkCancelled >>= fun _ => service.examine host unit) := by
  cases unit <;> rfl

theorem examine_outcome (host : Host) (service : Service) (unit : UnitOperand) (world : World) :
    ∃ calls journal, (service.examine host unit).outcome world =
      (resultsOf host service world.tree unit, { world with calls, journal }) := by
  cases unit with
  | unit value => exact Builder.directDependencies_outcome _ _ _ _ _
  | other value => exact ⟨_, _, rfl⟩

theorem examine_inv {unit : UnitOperand} {world after : World} {result : Except Fault (List FileDependencies)}
    (examined : (service.examine host unit).outcome world = (result, after)) :
    resultsOf host service world.tree unit = result ∧ ∃ calls journal, after = { world with calls, journal } := by
  obtain ⟨calls, journal, outcome⟩ := examine_outcome host service unit world
  obtain ⟨given, same⟩ := Prod.mk.inj (outcome.symm.trans examined)
  exact ⟨given, calls, journal, same.symm⟩

theorem analyzeUnit_outcome (host : Host) (service : Service) (unit : UnitOperand) (world : World) :
    ∃ calls journal, (service.analyzeUnit host unit).outcome world =
      (if service.number ∈ world.cancelled then .error .cancelled else resultsOf host service world.tree unit,
        { world with calls, journal }) := by
  rw [analyzeUnit_eq, Run.outcome_bind, checkCancelled_outcome]
  by_cases stopped : service.number ∈ world.cancelled
  · rw [if_pos stopped, if_pos stopped]
    exact ⟨_, _, rfl⟩
  · rw [if_neg stopped, if_neg stopped]
    exact examine_outcome host service unit world

theorem mapM_analyzeUnit_eq_ok {units : List UnitOperand} {parts : List (List FileDependencies)} {world after : World}
    (ran : (units.mapM (service.analyzeUnit host)).outcome world = (.ok parts, after)) :
    List.Forall₂ (fun unit results => resultsOf host service world.tree unit = .ok results) units parts
      ∧ after.tree = world.tree := by
  induction units generalizing world parts with
  | nil =>
    cases ran
    exact ⟨.nil, rfl⟩
  | cons unit rest ih =>
    rw [List.mapM_cons] at ran
    obtain ⟨results, middle, first, ran⟩ := Run.outcome_bind_eq_ok.mp ran
    obtain ⟨others, last, later, same⟩ := Run.outcome_bind_eq_ok.mp ran
    cases same
    obtain ⟨calls, journal, outcome⟩ := analyzeUnit_outcome host service unit world
    obtain ⟨given, rfl⟩ := Prod.mk.inj (outcome.symm.trans first)
    obtain ⟨pairs, kept⟩ := ih later
    refine ⟨.cons ?_ pairs, kept⟩
    split at given
    · cases given
    · exact given

theorem buildUnder_eq_ok (located : host.locate root = .ok root) {units : List UnitOperand} {graph : Graph}
    {world after : World} (ran : (service.buildUnder host root units).outcome world = (.ok graph, after)) :
    ∃ parts, List.Forall₂ (fun unit results => resultsOf host service world.tree unit = .ok results) units parts
      ∧ ShowsBelow root parts.flatten graph ∧ after.tree = world.tree := by
  rw [buildUnder] at ran
  simp only [Run.outcome_refuse] at ran
  split at ran
  · cases ran
  · obtain ⟨_, entered, checked, rest⟩ := Run.outcome_bind_eq_ok.mp ran
    clear ran
    obtain rfl := world_of_checkCancelled checked
    split at rest
    · next bare =>
      cases rest
      rw [List.isEmpty_iff] at bare
      subst bare
      refine ⟨[], .nil, ?_, rfl⟩
      exact shows_congr shows_empty (by simp [Named]) (by simp [Stated])
    · obtain ⟨parts, middle, analysed, rest⟩ := Run.outcome_bind_eq_ok.mp rest
      obtain ⟨pairs, kept⟩ := mapM_analyzeUnit_eq_ok analysed
      obtain ⟨built, last, assembled, rest⟩ := Run.outcome_bind_eq_ok.mp rest
      obtain ⟨_, done, logged, same⟩ := Run.outcome_bind_eq_ok.mp rest
      rw [Run.outcome_ofExcept] at assembled
      obtain ⟨made, rfl⟩ := Prod.mk.inj assembled
      cases same
      cases logged
      have canonical : ∀ results ∈ parts, ∀ result ∈ results, CanonicalResult host result := by
        intro results listed result member
        obtain ⟨unit, _, found⟩ := exists_of_mem_right pairs listed
        exact Builder.canonical_of_there (there_of_resultsOf found result member)
      obtain ⟨graph, given, shows⟩ := assemble_showsBelow located canonical
      cases made.symm.trans given
      exact ⟨parts, pairs, shows, kept⟩

theorem mapM_analyzeUnit_isOk {units : List UnitOperand} {parts : List (List FileDependencies)} {world : World}
    (wanted : service.number ∉ world.cancelled)
    (found : List.Forall₂ (fun unit results => resultsOf host service world.tree unit = .ok results) units parts) :
    ∃ after, (units.mapM (service.analyzeUnit host)).outcome world = (.ok parts, after) := by
  induction units generalizing world parts with
  | nil =>
    cases found
    exact ⟨world, rfl⟩
  | cons unit rest ih =>
    cases found with
    | @cons _ results _ others first later =>
    obtain ⟨calls, journal, ran⟩ := analyzeUnit_outcome host service unit world
    rw [if_neg wanted, first] at ran
    have wanted' : service.number ∉ ({ world with calls, journal } : World).cancelled := wanted
    obtain ⟨after, others⟩ := ih wanted' later
    refine ⟨after, ?_⟩
    rw [List.mapM_cons, Run.outcome_bind, ran]
    simp only [Run.outcome_bind, others]
    rfl

/-- What the units give is put together to the graph that is built. -/
theorem buildUnder_of_assembled {units : List UnitOperand} {parts : List (List FileDependencies)} {world : World}
    (whole : units.any UnitOperand.isNull = false) (present : units.isEmpty = false)
    (wanted : service.number ∉ world.cancelled)
    (found : List.Forall₂ (fun unit results => resultsOf host service world.tree unit = .ok results) units parts)
    {graph : Graph} (made : assemble host root parts = .ok graph) :
    ∃ after, (service.buildUnder host root units).outcome world = (.ok graph, after) := by
  obtain ⟨after, ran⟩ := mapM_analyzeUnit_isOk wanted found
  simp only [buildUnder, whole, present, Bool.false_eq_true, if_false, Run.outcome_bind, checkCancelled_outcome,
    if_neg wanted, ran, Run.outcome_ofExcept, made]
  exact ⟨_, rfl⟩

/-- A graph of what is there, below a root. -/
structure BuiltFrom (host : Host) (tree : FileTree) (root : String) (graph : Graph) : Prop where
  coherent : graph.Coherent
  there : ∀ file, graph.Mentions file → There host tree file
  below : ∀ file, graph.Mentions file → Path.isBelow root file = true

theorem builtFrom_of_showsBelow {tree : FileTree} {results : List FileDependencies} {graph : Graph}
    (there : ∀ result ∈ results, ResultThere host tree result) (shows : ShowsBelow root results graph) :
    BuiltFrom host tree root graph := by
  have named {file : String} (mentioned : graph.Mentions file) :
      Named results file ∧ Path.isBelow root file = true :=
    (shows.keys file).mp (shows.coherent.key_of_mentions mentioned)
  refine ⟨shows.coherent, ?_, fun file mentioned => (named mentioned).2⟩
  intro file mentioned
  obtain ⟨result, listed, rfl | member⟩ := (named mentioned).1
  · exact (there result listed).1
  · exact (there result listed).2 file member

theorem builtFrom_of_buildUnder (located : host.locate root = .ok root) {units : List UnitOperand} {graph : Graph}
    {world after : World} (ran : (service.buildUnder host root units).outcome world = (.ok graph, after)) :
    BuiltFrom host after.tree root graph := by
  obtain ⟨parts, pairs, shows, kept⟩ := buildUnder_eq_ok located ran
  rw [kept]
  refine builtFrom_of_showsBelow ?_ shows
  intro result member
  obtain ⟨results, listed, inside⟩ := List.mem_flatten.mp member
  obtain ⟨unit, _, found⟩ := exists_of_mem_right pairs listed
  exact there_of_resultsOf found result inside

theorem build_outcome (located : host.locate root = .ok root) (units : List UnitOperand) (world : World) :
    (service.build host (.text root) (some units)).outcome world =
      if world.tree.isDirectory root then (service.buildUnder host root units).outcome world
      else (.error (.rootMissing (.text root)), world) := by
  have placed : GraphStore.locateRoot host (.text root) = .ok root := located
  simp only [build, locateRoot, Run.outcome_bind, Run.outcome_ofExcept, placed, Run.outcome_tree]
  by_cases directory : world.tree.isDirectory root = true
  · rw [if_pos directory, if_pos directory]
    rfl
  · rw [if_neg directory, if_neg directory]
    rfl

theorem analyzeUnder_of_opened (located : host.locate root = .ok root) {path : Document} {unit : CompilationUnit}
    {results : List FileDependencies} {graph : Graph} {world : World} (wanted : service.number ∉ world.cancelled)
    (directory : world.tree.isDirectory root = true)
    (opens : ∀ seen : World, seen.tree = world.tree →
      (service.builder.frontend.openUnit path).outcome seen = (.ok unit, seen))
    (found : resultsOf host service world.tree (.unit unit) = .ok results)
    (made : assemble host root [results] = .ok graph) :
    ∃ after, (service.analyzeUnder host root (.list [path])).outcome world = (.ok graph, after) := by
  obtain ⟨opened, ran, tree, unasked⟩ : ∃ opened, ([path].mapM service.openUnit).outcome world = (.ok [unit], opened)
      ∧ opened.tree = world.tree ∧ opened.cancelled = world.cancelled := by
    simp only [List.mapM_cons, List.mapM_nil, openUnit, Frontend.openNoted, Run.outcome_bind, checkCancelled_outcome,
      if_neg wanted, Run.outcome_log, Run.outcome_note]
    rw [opens _ (by rfl)]
    exact ⟨_, rfl, rfl, rfl⟩
  have whole : [UnitOperand.unit unit].any UnitOperand.isNull = false := rfl
  obtain ⟨after, built⟩ := buildUnder_of_assembled whole rfl (unasked ▸ wanted) (.cons (tree ▸ found) .nil) made
  refine ⟨after, ?_⟩
  have listed : (Document.list [path]).elements? = some [path] := rfl
  rw [analyzeUnder, listed]
  simp only [Run.outcome_bind, ran]
  exact (build_outcome located _ opened).trans ((if_pos (tree ▸ directory)).trans built)

/-- Opening units and building their graph, whatever the frontend does to the tree when it opens them. -/
theorem analyzeUnder_eq_ok (located : host.locate root = .ok root) {units : Document} {graph : Graph}
    {world after : World} (ran : (service.analyzeUnder host root units).outcome world = (.ok graph, after)) :
    BuiltFrom host after.tree root graph := by
  rw [analyzeUnder] at ran
  split at ran
  · cases ran
  · obtain ⟨opened, middle, _, ran⟩ := Run.outcome_bind_eq_ok.mp ran
    rw [build_outcome located] at ran
    split at ran
    · exact builtFrom_of_buildUnder located ran
    · cases ran

end DeclGraph.Service
