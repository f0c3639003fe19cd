import DeclGraph.Graph.FileSet

/-!
Maps from files to sets of files. Keys are distinct and keep the order in which they were first
mentioned; two maps are the same when they give the same keys the same sets.
-/

namespace DeclGraph

abbrev DependencyMap := List (String × FileSet)

namespace DependencyMap

def keys (map : DependencyMap) : List String := map.map (·.1)

def find? (map : DependencyMap) (file : String) : Option FileSet :=
  match map with
  | [] => none
  | (key, set) :: rest => if key = file then some set else find? rest file

def get (map : DependencyMap) (file : String) : FileSet := (map.find? file).getD []

def add (map : DependencyMap) (file : String) (files : List String) : DependencyMap :=
  match map with
  | [] => [(file, FileSet.ofList files)]
  | (key, set) :: rest =>
    if key = file then (key, set.insertAll files) :: rest else (key, set) :: add rest file files

def addAll (map other : DependencyMap) : DependencyMap :=
  other.foldl (fun map row => map.add row.1 row.2) map

def pairCount (map : DependencyMap) : Nat :=
  map.foldl (fun total row => total + row.2.length) 0

/-- The reversed map. Every file mentioned gets an entry. -/
def transpose (map : DependencyMap) : DependencyMap :=
  map.foldl (fun reversed row =>
    row.2.foldl (fun reversed file => reversed.add file [row.1]) (reversed.add row.1 [])) []

def restrict (map : DependencyMap) (keep : String → Bool) : DependencyMap :=
  (map.filter fun row => keep row.1).map fun row => (row.1, row.2.filter keep)

def isPartOf (map other : DependencyMap) : Bool :=
  map.all fun row => other.find? row.1 = some row.2

def same (map other : DependencyMap) : Bool := map.isPartOf other && other.isPartOf map

def sorted (map : DependencyMap) : DependencyMap := map.mergeSort fun a b => decide (a.1 ≤ b.1)

end DependencyMap

end DeclGraph
