import DeclGraph.Graph.Query

/-!
Arguments that should be graphs but may be any value, and graphs given by nested values. Refusals come
in the order in which the parts are looked at.
-/

namespace DeclGraph

/-- A graph, or whatever else was given in its place. -/
inductive GraphOperand where
  | graph (value : Graph)
  | other (value : Document)
  deriving Inhabited

namespace GraphOperand

def isNull : GraphOperand → Bool
  | .graph _ => false
  | .other value => value.isNull

def kindText : GraphOperand → String
  | .graph _ => "<class 'typedep_graph.graph.DependencyGraph'>"
  | .other value => value.kindText

def receiver : GraphOperand → Except Fault Graph
  | .graph value => .ok value
  | .other value => .error (.lacks value.kindWord "upstream")

def queried : GraphOperand → Except Fault Graph
  | .graph value => .ok value
  | .other value => .error (.notGraph value.kindText)

def mergeable : GraphOperand → Except Fault Graph
  | .graph value => .ok value
  | .other value => .error (.notMergeable value.kindText)

def describe : GraphOperand → String
  | .graph value => value.describe
  | .other value => value.literal

-- Both are the same graph, or the same value.
def same : GraphOperand → GraphOperand → Bool
  | .graph a, .graph b => a.same b
  | .other a, .other b => a.same b
  | _, _ => false

end GraphOperand

namespace DependencyMap

def addValues (host : Host) (name : String) (map : DependencyMap) (key values : Document) :
    Except Fault DependencyMap := do
  if values.isNull then throw (.absent (name ++ "[" ++ key.literal ++ "]"))
  let file ← host.locateValue key
  match values.elements? with
  | none => throw (.notIterable values.kindWord)
  | some elements =>
    let files ← elements.mapM host.locateValue
    pure (map.add file files)

/-- A map given by entries; of entries under the same key the last counts. -/
def ofEntries (host : Host) (name : String) (entries : Option Entries) :
    Except Fault DependencyMap :=
  match entries with
  | none => .error (.absent name)
  | some entries =>
    entries.foldlM (fun map entry => map.addValues host name (.scalar entry.1) entry.2) []

end DependencyMap

namespace Graph

def ofEntries (host : Host) (upstream downstream : Option Entries) : Except Fault Graph := do
  let up ← DependencyMap.ofEntries host "upstream" upstream
  let down ← DependencyMap.ofEntries host "downstream" downstream
  pure ⟨up, down⟩

def checkDirect (file dependencies : Document) : Except Fault Unit := do
  if file.isNull then throw (.absent "file")
  if dependencies.isNull then throw (.absent "dependencies")

def rowOfValues (host : Host) (row : Document × Document) : Except Fault (String × List String) := do
  let file ← host.locateValue row.1
  match row.2.elements? with
  | none => throw (.notIterable row.2.kindWord)
  | some elements =>
    let dependencies ← elements.mapM host.locateValue
    pure (file, dependencies)

/-- The graph of direct dependencies given by values; an absent declaration is refused. -/
def ofDirectValues (host : Host) (rows : Option (List (Option (Document × Document)))) :
    Except Fault Graph :=
  match rows with
  | none => .error (.absent "results")
  | some rows => do
    let found ← rows.mapM fun
      | none => throw (.absentMember "results")
      | some row => rowOfValues host row
    pure (ofRows found)

def mergeOperands (graph other : GraphOperand) : Except Fault Graph := do
  pure ((← graph.receiver).merge (← other.mergeable))

def mergeAllOperands (graphs : Option (List GraphOperand)) : Except Fault Graph :=
  match graphs with
  | none => .error (.absent "graphs")
  | some graphs => do
    let found ← graphs.mapM GraphOperand.mergeable
    pure (mergeAll found)

end Graph

end DeclGraph
