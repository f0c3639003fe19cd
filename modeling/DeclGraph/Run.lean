import DeclGraph.Host
import DeclGraph.Logging.Record
import DeclGraph.Text.Lines

/-!
Computations that read and change the surroundings: the file tree, the log, the calls made to
frontends and the requests to cancel. What has happened before a failure stays.
-/

namespace DeclGraph

inductive FrontendCall where
  | opened (frontend : String) (path : Document)
  | listed (frontend : String) (path : String)
  deriving Inhabited

structure World where
  tree : FileTree
  -- Log records, oldest first.
  journal : List LogRecord := []
  -- Calls to frontends, oldest first.
  calls : List FrontendCall := []
  /-- The services in use, by name and number. -/
  services : List (String × Nat) := []
  /-- The services that were asked to stop. -/
  cancelled : List Nat := []
  deriving Inhabited

abbrev Run := ExceptT Fault (StateM World)

namespace Run

/-- Runs a computation. The surroundings are kept whether or not it fails. -/
def outcome {α : Type} (run : Run α) (world : World) : Except Fault α × World :=
  (ExceptT.run run).run world

def ofExcept {α : Type} (result : Except Fault α) : Run α :=
  match result with
  | .ok value => pure value
  | .error fault => throw fault

def tree : Run FileTree := return (← get).tree

def setTree (tree : FileTree) : Run Unit := modify fun world => { world with tree }

def onTree {α : Type} (path : String) (result : Except TreeFault α) : Run α :=
  match result with
  | .ok value => pure value
  | .error cause => throw (.tree cause path)

def makeDirectories (cwd : String) (trail : Path.Trail) : Run Unit := do
  let (result, made) := FileTree.makeDirectories cwd trail.root trail.names (← tree)
  setTree made
  onTree trail.text result

def readText (path : String) : Run String := do
  let bytes ← onTree path ((← tree).read path)
  match Text.ofBytes bytes with
  | .ok text => pure text
  | .error flaw => throw (.undecodable flaw)

/-- Writes a text into a file. A text without bytes is not written. -/
def writeText (path text : String) : Run Unit := do
  match Text.toBytes text with
  | .ok bytes => setTree (← onTree path ((← tree).writeFile path bytes))
  | .error flaw => throw (.unencodable flaw)

/-- Runs a computation. If it fails, another one is run before the failure goes on. -/
def onFailure {α : Type} (run : Run α) (cleanUp : Run Unit) : Run α :=
  tryCatch run fun fault => do
    cleanUp
    throw fault

def record (entry : LogRecord) : Run Unit :=
  modify fun world => { world with journal := world.journal ++ [entry] }

def log (channel : String) (level : LogLevel) (message : String) : Run Unit :=
  record { channel, level, message }

def note (call : FrontendCall) : Run Unit :=
  modify fun world => { world with calls := world.calls ++ [call] }

def isCancelled (service : Nat) : Run Bool := return decide (service ∈ (← get).cancelled)

def cancel (service : Nat) : Run Unit :=
  modify fun world => { world with cancelled := service :: world.cancelled.erase service }

def resetCancellation (service : Nat) : Run Unit :=
  modify fun world => { world with cancelled := world.cancelled.filter (· ≠ service) }

end Run

end DeclGraph
