import Mathlib.Data.List.Basic
import DeclGraph.Proofs.Cancellation
import DeclGraph.Proofs.FailedOperations

/-!
Building with several units at once. A worker analyses one unit: it asks whether the service should stop, then
whether another worker failed, and only then looks into the unit. What it finds it adds to a common list, and if
it fails it tells the others. The caller waits for the workers in the order of the units, and puts the results
together once all workers are done. Steps of workers and of the caller follow each other in any order, and the
service can be asked to stop between any two of them.
-/

namespace DeclGraph

namespace Service

def enter (host : Host) (root : Document) (units : List UnitOperand) : Run String := do
  let place ← locateRoot host root
  if units.any UnitOperand.isNull then throw (.absentMember "units") else pure place

def conclude (host : Host) (root : String) (units : List UnitOperand) (results : List (List FileDependencies)) :
    Run Graph := do
  let graph ← Run.ofExcept (assemble host root results)
  Run.log Channel.service .info
    ("Built dependency graph for " ++ root ++ ": " ++ toString units.length ++ " units, "
      ++ toString graph.files.length ++ " files, " ++ toString graph.edgeCount ++ " edges")
  pure graph

/-- Building one unit after another, in the parts that workers and caller share. -/
theorem build_eq (host : Host) (service : Service) (root : Document) (units : List UnitOperand) :
    service.build host root (some units) = (do
      let place ← enter host root units
      service.checkCancelled
      if units.isEmpty then pure Graph.empty
      else
        let results ← units.mapM (service.analyzeUnit host)
        conclude host place units results) := by
  simp only [build, buildUnder, enter, conclude, bind_assoc]
  congr
  funext place
  split
  · rfl
  · rfl

end Service

namespace Parallel

structure Job where
  host : Host
  service : Service
  root : Document
  units : List UnitOperand

/-- How far the work on a unit is. -/
inductive Worker where
  | waiting
  -- Nobody had asked to stop.
  | cleared
  | analysing
  | holding (results : List FileDependencies)
  | raising (fault : Fault)
  -- Passed over, because another worker had failed.
  | skipped
  | finished (results : List FileDependencies)
  | failed (fault : Fault)

namespace Worker

def isActive : Worker → Bool
  | cleared | analysing | holding _ | raising _ => true
  | waiting | skipped | finished _ | failed _ => false

def hasPassed : Worker → Bool
  | skipped | finished _ => true
  | waiting | cleared | analysing | holding _ | raising _ | failed _ => false

def hasEnded : Worker → Bool
  | skipped | finished _ | failed _ => true
  | waiting | cleared | analysing | holding _ | raising _ => false

def fault? : Worker → Option Fault
  | raising fault | failed fault => some fault
  | waiting | cleared | analysing | holding _ | skipped | finished _ => none

-- How many steps the worker can take at most.
def remaining : Worker → Nat
  | waiting => 4
  | cleared => 3
  | analysing => 2
  | holding _ | raising _ => 1
  | skipped | finished _ | failed _ => 0

def allRemaining (workers : List Worker) : Nat := workers.foldr (fun worker rest => worker.remaining + rest) 0

end Worker

/-- How far the caller is. -/
inductive Caller where
  | called
  | entered (place : String)
  -- Waits for the worker of this number.
  | awaiting (place : String) (number : Nat)
  -- Waits for all workers to end, in order to raise.
  | leaving (fault : Fault)
  | returned (graph : Graph)
  | raised (fault : Fault)

-- How many steps the caller can take at most, and the workers of so many units before they start.
def Caller.remaining (units : Nat) : Caller → Nat
  | called => 5 * units + 4
  | entered _ => 5 * units + 3
  | awaiting _ number => units - number + 2
  | leaving _ => 1
  | returned _ | raised _ => 0

structure Shared where
  world : World
  -- A worker failed.
  aborted : Bool := false
  collected : List (List FileDependencies) := []

structure State extends Shared where
  workers : List Worker := []
  caller : Caller := .called

namespace State

def isOver (state : State) : Bool :=
  match state.caller with
  | .returned _ | .raised _ => true
  | .called | .entered _ | .awaiting .. | .leaving _ => false

/-- What the first of the units raised for which a worker raised something. -/
def firstFault (state : State) : Option Fault := state.workers.findSome? Worker.fault?

def remaining (units : Nat) (state : State) : Nat :=
  state.caller.remaining units + Worker.allRemaining state.workers

end State

inductive Event where
  | cancel
  | caller
  | worker (number : Nat)
  deriving DecidableEq

/-- A step of a worker, with what is shared before and after it. -/
inductive Work (job : Job) (unit : UnitOperand) : Shared → Worker → Shared → Worker → Prop
  | clear {shared : Shared} {world : World}
      (checked : job.service.checkCancelled.outcome shared.world = (.ok (), world)) :
      Work job unit shared .waiting { shared with world } .cleared
  | stop {shared : Shared} {fault : Fault} {world : World}
      (checked : job.service.checkCancelled.outcome shared.world = (.error fault, world)) :
      Work job unit shared .waiting { shared with world } (.raising fault)
  | proceed {shared : Shared} (free : shared.aborted = false) : Work job unit shared .cleared shared .analysing
  | skip {shared : Shared} (aborted : shared.aborted = true) : Work job unit shared .cleared shared .skipped
  | find {shared : Shared} {results : List FileDependencies} {world : World}
      (examined : (job.service.examine job.host unit).outcome shared.world = (.ok results, world)) :
      Work job unit shared .analysing { shared with world } (.holding results)
  | miss {shared : Shared} {fault : Fault} {world : World}
      (examined : (job.service.examine job.host unit).outcome shared.world = (.error fault, world)) :
      Work job unit shared .analysing { shared with world } (.raising fault)
  | append {shared : Shared} {results : List FileDependencies} :
      Work job unit shared (.holding results) { shared with collected := shared.collected ++ [results] }
        (.finished results)
  | abort {shared : Shared} {fault : Fault} :
      Work job unit shared (.raising fault) { shared with aborted := true } (.failed fault)

inductive Step (job : Job) : State → Event → State → Prop
  | cancel {state : State} :
      Step job state .cancel { state with world := ((Run.cancel job.service.number).outcome state.world).2 }
  | worker {state : State} {number : Nat} {unit : UnitOperand} {before after : Worker} {shared : Shared}
      (asked : job.units[number]? = some unit) (found : state.workers[number]? = some before)
      (place : before = .waiting →
        (state.workers.countP Worker.isActive : Int) < Service.workers job.host job.service job.units.length)
      (moved : Work job unit state.toShared before shared after) :
      Step job state (.worker number) { state with toShared := shared, workers := state.workers.set number after }
  | enter {state : State} {place : String} {world : World} (called : state.caller = .called)
      (entered : (Service.enter job.host job.root job.units).outcome state.world = (.ok place, world)) :
      Step job state .caller { state with world, caller := .entered place }
  | refuse {state : State} {fault : Fault} {world : World} (called : state.caller = .called)
      (refused : (Service.enter job.host job.root job.units).outcome state.world = (.error fault, world)) :
      Step job state .caller { state with world, caller := .raised fault }
  | stop {state : State} {place : String} {fault : Fault} {world : World} (entered : state.caller = .entered place)
      (checked : job.service.checkCancelled.outcome state.world = (.error fault, world)) :
      Step job state .caller { state with world, caller := .raised fault }
  | nothing {state : State} {place : String} {world : World} (entered : state.caller = .entered place)
      (checked : job.service.checkCancelled.outcome state.world = (.ok (), world)) (idle : job.units = []) :
      Step job state .caller { state with world, caller := .returned Graph.empty }
  | submit {state : State} {place : String} {world : World} (entered : state.caller = .entered place)
      (checked : job.service.checkCancelled.outcome state.world = (.ok (), world)) (busy : job.units ≠ []) :
      Step job state .caller
        { state with world, workers := job.units.map fun _ => .waiting, caller := .awaiting place 0 }
  | next {state : State} {place : String} {number : Nat} {worker : Worker}
      (awaiting : state.caller = .awaiting place number) (found : state.workers[number]? = some worker)
      (passed : worker.hasPassed = true) :
      Step job state .caller { state with caller := .awaiting place (number + 1) }
  | notice {state : State} {place : String} {number : Nat} {fault : Fault}
      (awaiting : state.caller = .awaiting place number) (found : state.workers[number]? = some (.failed fault)) :
      Step job state .caller { state with caller := .leaving fault }
  | leave {state : State} {fault : Fault} (leaving : state.caller = .leaving fault)
      (ended : ∀ worker ∈ state.workers, worker.hasEnded = true) :
      Step job state .caller { state with caller := .raised fault }
  | conclude {state : State} {place : String} {graph : Graph} {world : World}
      (awaiting : state.caller = .awaiting place job.units.length)
      (concluded : (Service.conclude job.host place job.units state.collected).outcome state.world =
        (.ok graph, world)) :
      Step job state .caller { state with world, caller := .returned graph }
  | spoil {state : State} {place : String} {fault : Fault} {world : World}
      (awaiting : state.caller = .awaiting place job.units.length)
      (concluded : (Service.conclude job.host place job.units state.collected).outcome state.world =
        (.error fault, world)) :
      Step job state .caller { state with world, caller := .raised fault }

/-- The states that a build can come to, with what has happened until then. -/
inductive Runs (job : Job) (world : World) : List Event → State → Prop
  | start : Runs job world [] { world }
  | step {events : List Event} {state next : State} {event : Event} (before : Runs job world events state)
      (stepped : Step job state event next) : Runs job world (events ++ [event]) next

end Parallel

end DeclGraph
