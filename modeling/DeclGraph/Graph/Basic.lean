import DeclGraph.Graph.DependencyMap
import DeclGraph.Host

/-!
File dependency graphs. `upstream` gives the files that a file depends on, `downstream` the files that
depend on it. A graph built from direct dependencies has the second map as the reverse of the first;
`violations` lists where a graph given by two maps departs from that.
-/

namespace DeclGraph

structure Graph where
  upstream : DependencyMap
  downstream : DependencyMap
  deriving DecidableEq, Repr, Inhabited

structure FileDependencies where
  /-- The file that declares the type. -/
  file : String
  /-- The files that the declaration depends on. -/
  dependencies : List String
  typeName : Document
  deriving Inhabited

namespace Graph

def empty : Graph := ⟨[], []⟩

/-- Adds one dependency of a file. A file does not depend on itself. -/
def addDependency (map : DependencyMap) (file dependency : String) : DependencyMap :=
  if dependency = file then map else (map.add file [dependency]).add dependency []

-- Adds the dependencies of one declaration, all paths canonical.
def addDeclaration (map : DependencyMap) (file : String) (dependencies : List String) :
    DependencyMap :=
  dependencies.foldl (fun map dependency => addDependency map file dependency) (map.add file [])

def canonicalRow (host : Host) (result : FileDependencies) : Except Fault (String × List String) := do
  let file ← host.locate result.file
  let dependencies ← result.dependencies.mapM host.locate
  pure (file, dependencies)

def ofRows (rows : List (String × List String)) : Graph :=
  let upstream := rows.foldl (fun map row => addDeclaration map row.1 row.2) []
  ⟨upstream, upstream.transpose⟩

/-- The graph of direct dependencies. Declarations that share a file are joined. -/
def ofDirect (host : Host) (results : List FileDependencies) : Except Fault Graph := do
  let rows ← results.mapM (canonicalRow host)
  pure (ofRows rows)

def upstreamOf (graph : Graph) (file : String) : FileSet := graph.upstream.get file

def downstreamOf (graph : Graph) (file : String) : FileSet := graph.downstream.get file

def files (graph : Graph) : FileSet :=
  FileSet.ofList (graph.upstream.keys ++ graph.downstream.keys)

def edgeCount (graph : Graph) : Nat := graph.upstream.pairCount

def merge (graph other : Graph) : Graph :=
  ⟨graph.upstream.addAll other.upstream, graph.downstream.addAll other.downstream⟩

def mergeAll (graphs : List Graph) : Graph := graphs.foldl merge empty

def below (graph : Graph) (root : String) : Graph :=
  ⟨graph.upstream.restrict (Path.isBelow root), graph.downstream.restrict (Path.isBelow root)⟩

/-- The part of a graph below a root. A graph without entries asks nothing of the root. -/
def filter (host : Host) (graph : Graph) (root : Document) : Except Fault Graph :=
  if root.isNull then .error (.absent "root")
  else if graph.upstream.isEmpty && graph.downstream.isEmpty then .ok empty
  else do
    let base ← host.locateValue root
    pure (graph.below base)

def same (graph other : Graph) : Bool :=
  graph.upstream.same other.upstream && graph.downstream.same other.downstream

inductive Violation where
  | selfUpstream (file : String)
  | selfDownstream (file : String)
  | upstreamOnly (file dependency : String)
  | downstreamOnly (file dependent : String)
  | noDownstream (file : String)
  | noUpstream (file : String)
  deriving DecidableEq, Repr, Inhabited

def Violation.message : Violation → String
  | selfUpstream file => "Self-dependency in upstream: " ++ file
  | selfDownstream file => "Self-dependency in downstream: " ++ file
  | upstreamOnly file dependency =>
    "Upstream edge " ++ file ++ " -> " ++ dependency ++ " missing from downstream"
  | downstreamOnly file dependent =>
    "Downstream edge " ++ file ++ " <- " ++ dependent ++ " missing from upstream"
  | noDownstream file => "File missing from downstream map: " ++ file
  | noUpstream file => "File missing from upstream map: " ++ file

def upstreamViolations (graph : Graph) (row : String × FileSet) : List Violation :=
  (if row.1 ∈ row.2 then [.selfUpstream row.1] else [])
    ++ (row.2.filter fun file => row.1 ∉ graph.downstreamOf file).map (.upstreamOnly row.1)

def downstreamViolations (graph : Graph) (row : String × FileSet) : List Violation :=
  (if row.1 ∈ row.2 then [.selfDownstream row.1] else [])
    ++ (row.2.filter fun file => row.1 ∉ graph.upstreamOf file).map (.downstreamOnly row.1)

def onlyIn (map other : DependencyMap) : FileSet :=
  FileSet.ofList (map.keys.filter fun file => file ∉ other.keys)

def violations (graph : Graph) : List Violation :=
  graph.upstream.flatMap graph.upstreamViolations
    ++ graph.downstream.flatMap graph.downstreamViolations
    ++ (onlyIn graph.upstream graph.downstream).map .noDownstream
    ++ (onlyIn graph.downstream graph.upstream).map .noUpstream

def isValid (graph : Graph) : Bool := graph.violations.isEmpty

def describe (graph : Graph) : String :=
  "DependencyGraph(files=" ++ toString graph.files.length
    ++ ", edges=" ++ toString graph.edgeCount ++ ")"

-- A map as a document, keys increasing.
def mapDocument (map : DependencyMap) : Document :=
  .object (map.sorted.map fun row => (row.1, .texts row.2))

-- A graph as a document, with the root it belongs to if one is given.
def toDocument (graph : Graph) (root : Document) : Document :=
  let base : List (String × Document) :=
    [("upstream", mapDocument graph.upstream), ("downstream", mapDocument graph.downstream),
      ("total_files", .nat graph.files.length), ("total_edges", .nat graph.edgeCount)]
  .object (if root.isNull then base else base ++ [("project_root", root)])

end Graph

end DeclGraph
