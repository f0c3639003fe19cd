import DeclGraph.Yaml.Node

/-!
The key `<<` takes in the entries of other mappings, in front of the mapping's own. Its entry is
removed before the mappings that it names are looked at, so each entry is followed once, and a mapping
that takes in itself is no trouble. The key `=` is a text.
-/

namespace DeclGraph.Yaml

abbrev Merging := StateT (Array Node) (Except Failure)

namespace Merging

def nodeAt (number : NodeId) : Merging Node := return (← get).getD number default

def setContent (number : NodeId) (content : NodeContent) : Merging Unit :=
  modify fun nodes => nodes.modify number fun node => { node with content }

def pairsOf (number : NodeId) : Merging (List (NodeId × NodeId)) := do
  match (← nodeAt number).content with
  | .mapping pairs => pure pairs
  | _ => pure []

def firstMerge? (nodes : Array Node) (pairs : List (NodeId × NodeId)) :
    Option (Nat × NodeId × NodeId) :=
  (pairs.zipIdx.find? fun entry => (nodes.getD entry.1.1 default).tag = .merge).map fun entry =>
    (entry.2, entry.1)

def flattened (flatten : NodeId → Merging Unit) (number : NodeId) :
    Merging (List (NodeId × NodeId)) := do
  match (← nodeAt number).content with
  | .mapping _ =>
    flatten number
    pairsOf number
  | _ => throw .malformed

/-- What one `<<` entry takes in. Of several mappings the last one stands first. -/
def takenFrom (flatten : NodeId → Merging Unit) (value : NodeId) :
    Merging (List (NodeId × NodeId)) := do
  match (← nodeAt value).content with
  | .mapping _ => flattened flatten value
  | .sequence items => return (← items.mapM (flattened flatten)).reverse.flatten
  | .scalar _ => throw .malformed

/-- What the `<<` entries of a mapping take in; there are at most `count` of them. -/
def takenIn (flatten : NodeId → Merging Unit) (number : NodeId) :
    Nat → Merging (List (NodeId × NodeId))
  | 0 => pure []
  | count + 1 => do
    let pairs ← pairsOf number
    match firstMerge? (← get) pairs with
    | none => pure []
    | some (position, _, value) =>
      setContent number (.mapping (pairs.eraseIdx position))
      let here ← takenFrom flatten value
      return here ++ (← takenIn flatten number count)

def settleKey (number : NodeId) : Merging Unit :=
  modify fun nodes => nodes.modify number fun node =>
    if node.tag = .value then { node with tag := .str } else node

/-- Puts what the `<<` entries of a mapping take in in front of its own pairs. The first argument
bounds how deep such entries can be nested. -/
def flatten : Nat → NodeId → Merging Unit
  | 0, _ => pure ()
  | depth + 1, number => do
    let taken ← takenIn (flatten depth) number (← pairsOf number).length
    let own ← pairsOf number
    own.forM fun pair => settleKey pair.1
    setContent number (.mapping (taken ++ own))

end Merging

def pairCount (nodes : Array Node) : Nat :=
  nodes.foldl (fun total node => total + match node.content with
    | .mapping pairs => pairs.length
    | _ => 0) 0

/-- The pairs of a mapping after it has taken in what its `<<` entries name. Each level of nesting has
removed one pair. -/
def flattenedPairs (number : NodeId) : Merging (List (NodeId × NodeId)) := do
  Merging.flatten (pairCount (← get) + 1) number
  Merging.pairsOf number

end DeclGraph.Yaml
