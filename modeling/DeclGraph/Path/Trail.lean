import DeclGraph.Path.Basic

/-!
Trails: paths kept as a list of names under a root. Empty and `.` names are dropped when a trail is
read, `..` is kept. A trail without root and names is written `.`.
-/

namespace DeclGraph.Path

/-- A path by its names. `root` holds the leading slashes: none, one or two. -/
structure Trail where
  root : String
  names : List String
  deriving DecidableEq, Repr, Inhabited

namespace Trail

def namesOf (text : String) : List String := (segments text).filter fun s => s ≠ "" ∧ s ≠ "."

def rootOf (text : String) : String :=
  if isDoubled text then "//" else if isAbsolute text then "/" else ""

def ofText (text : String) : Trail := ⟨rootOf text, namesOf text⟩

def text (trail : Trail) : String :=
  let written := trail.root ++ "/".intercalate trail.names
  if written = "" then "." else written

/-- The trail continued; a trail with a root of its own stands for itself. -/
def append (trail more : Trail) : Trail :=
  if more.root = "" then ⟨trail.root, trail.names ++ more.names⟩ else more

def join (trail : Trail) (more : String) : Trail := trail.append (ofText more)

def parent (trail : Trail) : Trail := ⟨trail.root, trail.names.dropLast⟩

end Trail

end DeclGraph.Path
