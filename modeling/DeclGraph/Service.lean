import DeclGraph.Builder
import DeclGraph.Storage.Store

/-!
Builds the graph of a project, and keeps it between runs. Units are analysed one by one; a failure
stops the units after it, so a build gives the graph of all its units or none. A saved graph is used
as long as it can be read back.
-/

namespace DeclGraph

structure Service where
  settings : Settings
  builder : Builder
  /-- The number under which the service can be asked to stop. -/
  number : Nat

inductive FrontendOperand where
  | frontend (value : Frontend)
  | other (kind : String)

def FrontendOperand.required : FrontendOperand → Except Fault Frontend
  | .frontend value => .ok value
  | .other kind => .error (.notFrontend kind)

namespace Service

def create (host : Host) (settings : Settings) (frontend : FrontendOperand) (number : Nat) :
    Except Fault Service := do
  let builder ← Builder.create host (← frontend.required) (settings.markupExtensions.map .text) none
  pure ⟨settings, builder, number⟩

def checkCancelled (service : Service) : Run Unit := do
  if ← Run.isCancelled service.number then throw .cancelled

def workers (host : Host) (service : Service) (units : Int) : Int :=
  let limit := if service.settings.maxWorkers = 0 then max 1 (Int.ofNat host.processors)
    else service.settings.maxWorkers
  max 1 (min limit units)

/-- The canonical path of a project root, which has to be a directory. -/
def locateRoot (host : Host) (root : Document) : Run String := do
  let place ← Run.ofExcept (GraphStore.locateRoot host root)
  if (← Run.tree).isDirectory place then pure place else throw (.rootMissing root)

def workerName : String := "typedep-unit_0"

def analyzeUnit (host : Host) (service : Service) (unit : UnitOperand) :
    Run (List FileDependencies) := do
  service.checkCancelled
  match unit with
  | .unit unit => service.builder.directDependencies host workerName unit
  | .other value => throw (.lacks value.kindWord "path")

def assemble (host : Host) (root : String) (results : List (List FileDependencies)) :
    Except Fault Graph := do
  let graphs ← results.mapM (Graph.ofDirect host)
  Graph.filter host (Graph.mergeAll graphs) (.text root)

def buildUnder (host : Host) (service : Service) (root : String) (units : List UnitOperand) :
    Run Graph := do
  if units.any UnitOperand.isNull then throw (.absentMember "units")
  service.checkCancelled
  if units.isEmpty then pure Graph.empty
  else
    let results ← units.mapM (service.analyzeUnit host)
    let graph ← Run.ofExcept (assemble host root results)
    Run.log Channel.service .info
      ("Built dependency graph for " ++ root ++ ": " ++ toString units.length ++ " units, "
        ++ toString graph.files.length ++ " files, " ++ toString graph.edgeCount ++ " edges")
    pure graph

def build (host : Host) (service : Service) (root : Document) (units : Option (List UnitOperand)) :
    Run Graph := do
  let place ← locateRoot host root
  match units with
  | none => throw (.absent "units")
  | some units => service.buildUnder host place units

-- Opens one unit, unless the service was asked to stop.
def openUnit (service : Service) (path : Document) : Run CompilationUnit := do
  service.checkCancelled
  Run.log Channel.service .info ("Opening compilation unit " ++ path.display)
  service.builder.frontend.openNoted path

/-- Opens units and builds their graph below a canonical root. A frontend may have changed the tree, so the root is
looked at again. -/
def analyzeUnder (host : Host) (service : Service) (root : String) (units : Document) : Run Graph := do
  match units.elements? with
  | none => throw (.notIterable units.kindWord)
  | some paths =>
    let opened ← paths.mapM service.openUnit
    service.build host (.text root) (some (opened.map .unit))

def analyze (host : Host) (service : Service) (root units : Document) : Run Graph := do
  let place ← locateRoot host root
  if units.isNull then throw (.absent "unit_paths")
  service.analyzeUnder host place units

def store (host : Host) (service : Service) (root : Document) : Except Fault GraphStore :=
  if service.settings.enableGraphCache then GraphStore.openFile host service.settings root
  else GraphStore.openMemory host root

def rebuild (host : Host) (service : Service) (store : GraphStore) (root : String)
    (units : Document) : Run Graph := do
  if !units.isSet then throw (.graphUnavailable root)
  let graph ← service.analyzeUnder host root units
  let _ ← store.save host (.graph graph)
  pure graph

/-- The saved graph, or else a new one, which is saved. -/
def loadOrBuild (host : Host) (service : Service) (root units : Document) (force : Bool) :
    Run Graph := do
  let place ← locateRoot host root
  if units.isNull then throw (.absent "unit_paths")
  let store ← Run.ofExcept (service.store host (.text place))
  let saved ← if force then pure none else store.load host
  match saved with
  | some graph =>
    Run.log Channel.service .info ("Using cached dependency graph for " ++ place)
    pure graph
  | none => service.rebuild host store place units

end Service

end DeclGraph
