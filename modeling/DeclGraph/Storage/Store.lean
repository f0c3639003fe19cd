import DeclGraph.Settings
import DeclGraph.Storage.Saved

/-!
Stores keep the saved graph of one project root: in a file below the root, or in memory. A file is
written under another name in the same directory and then moved over the old one, so that a reader
never meets half a file.
-/

namespace DeclGraph

inductive GraphStore where
  | file (root : String) (path : Path.Trail)
  | memory (root : String) (saved : Option String)
  deriving Inhabited

namespace GraphStore

def metadataName : String := "metadata"

def root : GraphStore → String
  | .file root _ => root
  | .memory root _ => root

def locateRoot (host : Host) (root : Document) : Except Fault String :=
  if root.isNull then .error (.absent "project_root") else host.locateValue root

def artifact (settings : Settings) (root : String) : Path.Trail :=
  (((Path.Trail.ofText root).join settings.cacheDirName).join metadataName).join
    settings.graphFileName

def openFile (host : Host) (settings : Settings) (root : Document) : Except Fault GraphStore := do
  let place ← locateRoot host root
  pure (.file place (artifact settings place))

def openMemory (host : Host) (root : Document) : Except Fault GraphStore := do
  pure (.memory (← locateRoot host root) none)

/-- The name of the file that is written before it is moved. Its middle has at least eight characters. -/
def temporaryName (number : Nat) : String :=
  ".graph-" ++ String.ofList ((toString number).toList.leftpad 8 '_') ++ ".tmp"

def freshPath (tree : FileTree) (directory : String) : String :=
  let paths := (List.range (tree.entries.length + 1)).map fun number =>
    Path.joinTo directory (temporaryName number)
  (paths.find? fun path => !(tree.look path).isOk).getD (Path.joinTo directory (temporaryName 0))

def makeTemporary (directory : String) : Run String := do
  let tree ← Run.tree
  let path := freshPath tree directory
  Run.setTree (← Run.onTree path (tree.writeFile path .empty))
  pure path

def moveOver (source target : String) : Run Unit := do
  Run.setTree (← Run.onTree target ((← Run.tree).replace source target))

def discard (path : String) : Run Unit := do
  let tree ← Run.tree
  if (tree.look path).isOk then Run.setTree (← Run.onTree path (tree.unlink path))

/-- Puts a file at a trail by way of a temporary file in the same directory, which `write` fills. Whatever fails once
that file is made, it is removed again. -/
def placeWith (host : Host) (trail : Path.Trail) (write : String → Run Unit) : Run Unit := do
  Run.makeDirectories host.cwd trail.parent
  let temporary ← makeTemporary trail.parent.text
  let fill := do
    write temporary
    moveOver temporary trail.text
  fill.onFailure (discard temporary)

def place (host : Host) (trail : Path.Trail) (text : String) : Run Unit :=
  placeWith host trail (Run.writeText · text)

def save (host : Host) (store : GraphStore) (graph : GraphOperand) : Run GraphStore := do
  let text ← Run.ofExcept (Saved.writeOperand host graph (.text store.root))
  match store with
  | .memory root _ => pure (.memory root (some text))
  | .file root trail =>
    place host trail text
    let saved ← Run.ofExcept graph.receiver
    Run.log Channel.storage .info
      ("Saved dependency graph (" ++ toString saved.files.length ++ " files, "
        ++ toString saved.edgeCount ++ " edges) to " ++ trail.text)
    pure (.file root trail)

def load (host : Host) (store : GraphStore) : Run (Option Graph) := do
  match store with
  | .memory _ none => pure none
  | .memory root (some text) => Saved.restore host (.text text) (.text root)
  | .file root trail =>
    match ← Run.onTree trail.text ((← Run.tree).probe trail.text) with
    | some (.file bytes) =>
      match Text.ofBytes bytes with
      | .error flaw => throw (.undecodable flaw)
      | .ok text =>
        let found ← Saved.restore host (.text text) (.text root)
        if found.isNone then
          Run.log Channel.storage .info
            ("Cached dependency graph at " ++ trail.text ++ " is stale, rebuilding")
        pure found
    | _ => pure none

def clear (store : GraphStore) : Run GraphStore := do
  match store with
  | .memory root _ => pure (.memory root none)
  | .file root trail =>
    let tree ← Run.tree
    match ← Run.onTree trail.text (tree.probe trail.text) with
    | none => pure ()
    | some _ => Run.setTree (← Run.onTree trail.text (tree.unlink trail.text))
    pure (.file root trail)

end GraphStore

end DeclGraph
