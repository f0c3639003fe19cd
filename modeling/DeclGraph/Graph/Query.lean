import DeclGraph.Graph.Basic

/-!
Questions to a graph: the neighbours of a file, the order in which to work through files, and counts.
-/

namespace DeclGraph

structure FileContext where
  file : String
  upstream : FileSet
  downstream : FileSet
  deriving DecidableEq, Repr, Inhabited

def FileContext.fields (context : FileContext) : List (String × Document) :=
  [("file", .text context.file), ("upstream", .texts context.upstream),
    ("downstream", .texts context.downstream)]

-- A file with its place in a queue, counted from 1.
structure QueuedFile where
  context : FileContext
  position : Nat
  deriving DecidableEq, Repr, Inhabited

def QueuedFile.document (entry : QueuedFile) : Document :=
  .object (entry.context.fields ++ [("position", .nat entry.position)])

structure GraphSummary where
  totalFiles : Nat
  totalEdges : Nat
  isolatedFiles : Nat
  /-- Files with the number of files that depend on them. -/
  mostConnected : List (String × Nat)
  deriving DecidableEq, Repr, Inhabited

def GraphSummary.document (summary : GraphSummary) : Document :=
  .object [("total_files", .nat summary.totalFiles), ("total_edges", .nat summary.totalEdges),
    ("isolated_files", .nat summary.isolatedFiles),
    ("most_connected_files", .list (summary.mostConnected.map fun row =>
      .object [("file", .text row.1), ("dependent_count", .nat row.2)]))]

namespace Graph

def contextOf (graph : Graph) (file : String) : FileContext :=
  ⟨file, graph.upstreamOf file, graph.downstreamOf file⟩

/-- Fewer upstream files come first; equal numbers go by path. -/
def queuedBefore (a b : FileContext) : Bool :=
  a.upstream.length < b.upstream.length
    || (a.upstream.length = b.upstream.length && decide (a.file ≤ b.file))

def queueOf (graph : Graph) (files : FileSet) : List QueuedFile :=
  ((files.map graph.contextOf).mergeSort queuedBefore).zipIdx.map fun (context, index) =>
    ⟨context, index + 1⟩

/-- The queue of the requested files, of all files if none are requested. -/
def queue (host : Host) (graph : Graph) (request : Option (List Document)) :
    Except Fault (List QueuedFile) :=
  match request with
  | none => .ok (graph.queueOf graph.files)
  | some spellings => do
    let files ← spellings.mapM host.locateValue
    pure (graph.queueOf (FileSet.ofList files))

def connectedLimit : Nat := 10

/-- More dependents come first; equal numbers go by path. -/
def moreConnected (a b : String × Nat) : Bool :=
  b.2 < a.2 || (a.2 = b.2 && decide (a.1 ≤ b.1))

def mostConnected (graph : Graph) (limit : Nat) : List (String × Nat) :=
  let counts := graph.downstream.map fun row => (row.1, row.2.length)
  ((counts.mergeSort moreConnected).take limit).filter fun row => row.2 ≠ 0

def isIsolated (graph : Graph) (file : String) : Bool :=
  (graph.upstreamOf file).isEmpty && (graph.downstreamOf file).isEmpty

def summary (graph : Graph) : GraphSummary where
  totalFiles := graph.files.length
  totalEdges := graph.edgeCount
  isolatedFiles := (graph.files.filter graph.isIsolated).length
  mostConnected := graph.mostConnected connectedLimit

end Graph

end DeclGraph
