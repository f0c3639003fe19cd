import DeclGraph.Fault
import DeclGraph.Text.Case

/-!
The host that operations run on: its working directory, and whether file names that differ only in
case are one file. File identity in the whole library is the canonical path that a host gives.
-/

namespace DeclGraph

structure Host where
  /-- The working directory, in canonical form. -/
  cwd : String
  /-- Names that differ only in case name one file. -/
  foldsCase : Bool
  /-- Units that can be analysed at once when nothing else is configured. -/
  processors : Nat
  /-- The day as log file names show it. -/
  day : String
  /-- The moment as log lines show it. -/
  moment : String
  deriving Repr, Inhabited

namespace Host

def canonical (host : Host) (path : String) : String :=
  let placed := Path.normalize host.cwd path
  if host.foldsCase then Text.lower placed else placed

/-- The canonical path of a spelling that is not empty. -/
def locate (host : Host) (path : String) : Except Fault String :=
  if path = "" then .error .emptyPath else .ok (host.canonical path)

def locateValue (host : Host) : Document → Except Fault String
  | .scalar .null => .error (.absent "path")
  | .scalar (.text path) => host.locate path
  | value => .error (.notSpelling value.kindWord)

def isWithin (host : Host) (path root : Document) : Except Fault Bool := do
  let place ← host.locateValue path
  let base ← host.locateValue root
  pure (Path.isBelow base place)

def relativeValue (host : Host) (path root : Document) : Except Fault String := do
  if ← host.isWithin path root then
    pure (Path.relativeTo (← host.locateValue root) (← host.locateValue path))
  else throw (.outsideRoot path.display root.display)

end Host

end DeclGraph
