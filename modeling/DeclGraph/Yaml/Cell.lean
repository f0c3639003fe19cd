import DeclGraph.Yaml.Merge
import DeclGraph.Yaml.ScalarValue

/-!
The values of nodes. A scalar gets its value where it is met; a collection is empty at first and is
filled after all that were met before it. So what is wrong with a scalar shows before what is wrong
inside an earlier collection, and a collection can contain itself.
-/

namespace DeclGraph.Yaml

inductive Cell where
  | scalar (value : Scalar)
  | list (items : List NodeId)
  | map (entries : List (Scalar × NodeId))
  | set (members : List Scalar)
  | pairs (items : List (NodeId × NodeId))
  deriving Inhabited

structure Building where
  nodes : Array Node
  /-- The cells of the nodes that were met. -/
  cells : Array (Option Cell)
  /-- Collections to be filled, the latest first. -/
  waiting : List NodeId := []

abbrev Build := StateT Building (Except Failure)

namespace Build

def nodeAt (number : NodeId) : Build Node := return (← get).nodes.getD number default

def setCell (number : NodeId) (cell : Cell) : Build Unit :=
  modify fun state => { state with cells := state.cells.setIfInBounds number (some cell) }

/-- The text of a scalar, or of the `=` entry of a mapping that stands for one. There are no more than
`count` nodes to follow. -/
def scalarText : Nat → NodeId → Build String
  | 0, _ => throw (.unusable .endless)
  | count + 1, number => do
    match (← nodeAt number).content with
    | .scalar text => pure text
    | .sequence _ => throw .malformed
    | .mapping pairs =>
      let nodes := (← get).nodes
      match pairs.find? fun pair => (nodes.getD pair.1 default).tag = .value with
      | some pair => scalarText count pair.2
      | none => throw .malformed

def emptyCell? : Tag → Option Cell
  | .seq => some (.list [])
  | .map => some (.map [])
  | .set => some (.set [])
  | .pairs => some (.pairs [])
  | _ => none

def isKnown : Tag → Bool
  | .merge | .value | .other => false
  | _ => true

/-- The value of a node that is no collection. A date is looked for in the node itself. -/
def scalarCell (number : NodeId) : Build Cell := do
  let node ← nodeAt number
  if !isKnown node.tag then throw .malformed
  let text ← scalarText ((← get).nodes.size + 1) number
  match node.tag, node.content with
  | .timestamp, .mapping _ => throw (.unusable (.notSearchable (Document.list []).kindWord))
  | tag, _ => Cell.scalar <$> scalarOf tag (number + 1) text

def meet (number : NodeId) : Build Cell := do
  match (← get).cells.getD number none with
  | some cell => pure cell
  | none =>
    match emptyCell? (← nodeAt number).tag with
    | some cell =>
      setCell number cell
      modify fun state => { state with waiting := number :: state.waiting }
      pure cell
    | none =>
      let cell ← scalarCell number
      setCell number cell
      pure cell

/-- The entries that pairs of nodes make. A key is a scalar; of equal keys the first keeps its place
and the last its value. -/
def entriesOf : List (NodeId × NodeId) → List (Scalar × NodeId) → Build (List (Scalar × NodeId))
  | [], found => pure found
  | (name, value) :: rest, found => do
    match ← meet name with
    | .scalar key =>
      let _ ← meet value
      entriesOf rest (insert found key value)
    | _ => throw .malformed
where
  insert (found : List (Scalar × NodeId)) (key : Scalar) (value : NodeId) : List (Scalar × NodeId) :=
    match found with
    | [] => [(key, value)]
    | (other, old) :: rest =>
      if other.key = key.key then (other, value) :: rest else (other, old) :: insert rest key value

def mappingEntries (number : NodeId) : Build (List (Scalar × NodeId)) := do
  match (← nodeAt number).content with
  | .mapping _ =>
    let (pairs, nodes) ← (flattenedPairs number).run (← get).nodes
    modify fun state => { state with nodes }
    entriesOf pairs []
  | _ => throw .malformed

def onlyPair (number : NodeId) : Build (NodeId × NodeId) := do
  match (← nodeAt number).content with
  | .mapping [(name, value)] =>
    let _ ← meet name
    let _ ← meet value
    pure (name, value)
  | _ => throw .malformed

def fill (number : NodeId) : Build Unit := do
  let node ← nodeAt number
  match node.tag, node.content with
  | .seq, .sequence items =>
    items.forM fun item => discard (meet item)
    setCell number (.list items)
  | .pairs, .sequence items => setCell number (.pairs (← items.mapM onlyPair))
  | .map, _ => setCell number (.map (← mappingEntries number))
  | .set, _ => setCell number (.set ((← mappingEntries number).map (·.1)))
  | _, _ => throw .malformed

/-- Fills the collections that wait, and those met meanwhile after them. A node waits only once, so
there are at most `count` rounds. -/
def fillAll : Nat → Build Unit
  | 0 => pure ()
  | count + 1 => do
    match (← get).waiting.reverse with
    | [] => pure ()
    | waiting =>
      modify fun state => { state with waiting := [] }
      waiting.forM fill
      fillAll count

end Build

def cellsOf (nodes : Array Node) (root : NodeId) : Except Failure (Array (Option Cell)) := do
  let build : Build Unit := do
    let _ ← Build.meet root
    Build.fillAll nodes.size
  let (_, state) ← build.run { nodes, cells := Array.replicate nodes.size none }
  pure state.cells

end DeclGraph.Yaml
