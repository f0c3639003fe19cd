import DeclGraph.Yaml.Cell

/-!
Reads a YAML file into a document. A value that contains itself gets labels; any other is written out
at every place where it stands.
-/

namespace DeclGraph.Yaml

namespace Cell

def integer? : Scalar → Option Int
  | .int value => some value
  | _ => none

/-- The members of a set in the order in which they are shown: integers in their own order. -/
def shownMembers (members : List Scalar) : List Scalar :=
  match members.mapM integer? with
  | some integers => (integers.mergeSort fun a b => decide (a ≤ b)).map Scalar.int
  | none => members

-- The document of a cell, given those of its parts.
def document {m : Type → Type} [Monad m] (part : NodeId → m Document) : Cell → m Document
  | .scalar value => pure (.scalar value)
  | .list items => Document.list <$> items.mapM part
  | .map entries => Document.map <$> entries.mapM fun entry => return (entry.1, ← part entry.2)
  | .set members => pure (.set (shownMembers members))
  | .pairs items => Document.list <$> items.mapM fun pair =>
      return .pair (← part pair.1) (← part pair.2)

/-- The value of a node that does not contain itself; each node is written out once and kept. -/
def plainDocument (cells : Array (Option Cell)) :
    Nat → NodeId → StateT (Array (Option Document)) Option Document
  | 0, _ => fun _ => none
  | depth + 1, number => do
    match (← get).getD number none with
    | some found => pure found
    | none =>
      let found ← ((cells.getD number none).getD (.scalar .null)).document (plainDocument cells depth)
      modify fun known => known.setIfInBounds number (some found)
      pure found

/-- The value of a node with a label for every collection; `around` holds the collections it stands
in. -/
def labelledDocument (cells : Array (Option Cell)) : Nat → List NodeId → NodeId → Document
  | 0, _, number => .again number
  | depth + 1, around, number =>
    match (cells.getD number none).getD (.scalar .null) with
    | .scalar value => .scalar value
    | cell =>
      if number ∈ around then .again number
      else
        let part (item : NodeId) : Id Document := labelledDocument cells depth (number :: around) item
        .labelled number (cell.document part).run

/-- The value of a node. Parts are nested no deeper than there are nodes, unless a value contains
itself. -/
def documentOf (cells : Array (Option Cell)) (root : NodeId) : Document :=
  match (plainDocument cells (cells.size + 1) root).run (Array.replicate cells.size none) with
  | some (found, _) => found
  | none => labelledDocument cells (cells.size + 1) [] root

end Cell

/-- Reads the bytes of a file. A text without a document gives the absent value. -/
def parse (bytes : ByteArray) : Except Failure Document := do
  let (nodes, root) ← nodesOf (Source.ofBytes bytes)
  match root with
  | none => pure .null
  | some number => return Cell.documentOf (← cellsOf nodes number) number

end DeclGraph.Yaml
