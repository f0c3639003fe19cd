import DeclGraph.Graph.Operand
import DeclGraph.Json.Reader
import DeclGraph.Json.Writer
import DeclGraph.Rows
import DeclGraph.Run

/-!
Saved graphs: one JSON object with a format version and the two maps, files named relative to the
project root. Reading back is all or nothing: a text that is not a saved graph, a file that is missing
or outside of the root, or maps that are not each other's reverse give no graph.
-/

namespace DeclGraph.Saved

def formatVersion : Int := 1

/-- A map with files named relative to a root. All keys are named before any member is. -/
def relativeRows (host : Host) (root : Document) (map : DependencyMap) :
    Except Fault (Rows FileSet) := do
  let named ← map.mapM fun row => do
    pure ((← host.relativeValue (.text row.1) root), row.2)
  let joined := named.foldl (fun rows row => Rows.set rows row.1 row.2) []
  (Rows.sorted joined).mapM fun row => do
    let members ← row.2.mapM fun file => host.relativeValue (.text file) root
    pure (row.1, FileSet.ofList members)

def rowsDocument (rows : Rows FileSet) : Document :=
  .object (rows.map fun row => (row.1, .texts row.2))

def write (host : Host) (graph : Graph) (root : Document) : Except Fault String := do
  let upstream ← relativeRows host root graph.upstream
  let downstream ← relativeRows host root graph.downstream
  pure (Json.write .plain (.object
    [("formatVersion", .int formatVersion), ("upstream", rowsDocument upstream),
      ("downstream", rowsDocument downstream)]))

def writeOperand (host : Host) (graph : GraphOperand) (root : Document) : Except Fault String := do
  if graph.isNull then throw (.absent "graph")
  if root.isNull then throw (.absent "root")
  write host (← graph.receiver) root

inductive Rejection where
  | rootMissing (root : Document)
  | notJson
  | notObject
  | unknownVersion (version : Document)
  | noMap (name : String)
  | missingFile (name : Document)
  | notList (name : Document)
  | inconsistent (count : Nat)
  deriving Inhabited

def Rejection.message : Rejection → String
  | rootMissing root => "Project root " ++ root.display ++ " does not exist, cached graph unusable"
  | notJson => "Cached graph is not valid JSON"
  | notObject => "Cached graph is not a JSON object"
  | unknownVersion version => "Unsupported cached graph format version: " ++ version.literal
  | noMap name => "Cached graph has no valid '" ++ name ++ "' map"
  | missingFile name => "Cached graph references missing file '" ++ name.display ++ "'"
  | notList name => "Cached graph entry '" ++ name.display ++ "' is not a list"
  | inconsistent count => "Cached graph is inconsistent (" ++ toString count ++ " errors)"

def fileOf? (host : Host) (tree : FileTree) (root : String) (name : Document) : Option String :=
  match name with
  | .scalar (.text name) =>
    if name = "" ∨ Path.isAbsolute name then none
    else
      let file := host.canonical (Path.joinAll root (Path.segments name))
      if Path.isBelow root file ∧ tree.isFile file then some file else none
  | _ => none

/-- The files that saved names stand for; the first that stands for none is reported. -/
def filesOf (host : Host) (tree : FileTree) (root : String) :
    List Document → Except Rejection (List String)
  | [] => .ok []
  | name :: rest =>
    match fileOf? host tree root name with
    | none => .error (.missingFile name)
    | some file => do
      let files ← filesOf host tree root rest
      pure (file :: files)

/-- Reads the entries of a map. Of entries for one file the last counts. -/
def readEntries (host : Host) (tree : FileTree) (root : String) :
    Entries → Rows FileSet → Except Rejection DependencyMap
  | [], found => .ok found
  | (name, value) :: rest, found =>
    match fileOf? host tree root (.scalar name) with
    | none => .error (.missingFile (.scalar name))
    | some file =>
      match value with
      | .list names => do
        let files ← filesOf host tree root names
        readEntries host tree root rest (Rows.set found file (FileSet.ofList files))
      | _ => .error (.notList (.scalar name))

def readMap (host : Host) (tree : FileTree) (root name : String) (value : Document) :
    Except Rejection DependencyMap :=
  match value with
  | .map entries => readEntries host tree root entries []
  | _ => .error (.noMap name)

/-- The version is the one that is written; a truth value is no version. -/
def isVersion : Document → Bool
  | .scalar (.bool _) => false
  | value => value.same (.int formatVersion)

def read (host : Host) (tree : FileTree) (root : String) (document : Document) :
    Except Rejection Graph :=
  match document with
  | .map entries => do
    let version := Entries.get entries "formatVersion"
    if !isVersion version then throw (.unknownVersion version)
    let upstream ← readMap host tree root "upstream" (Entries.get entries "upstream")
    let downstream ← readMap host tree root "downstream" (Entries.get entries "downstream")
    let graph : Graph := ⟨upstream, downstream⟩
    if graph.isValid then pure graph else throw (.inconsistent graph.violations.length)
  | _ => .error .notObject

/-- The given root names a directory. Numbers name none; other values cannot be asked for. -/
def rootIsDirectory (host : Host) (tree : FileTree) : Document → Except Fault Bool
  | .scalar (.text root) =>
    .ok (root ≠ "" && tree.isDirectory (Path.absolute host.cwd root))
  | .scalar (.int number) =>
    if -0x80000000 ≤ number ∧ number < 0x80000000 then .ok false else .error (.tooLarge .word)
  | .scalar (.bool _) => .ok false
  | _ => .error .wrongShape

def readUnder (host : Host) (tree : FileTree) (text root : Document) :
    Except Fault (Except Rejection Graph) := do
  if text.isNull then throw (.absent "text")
  if root.isNull then throw (.absent "root")
  if !(← rootIsDirectory host tree root) then return .error (.rootMissing root)
  let place ← host.locateValue root
  match text with
  | .scalar (.text text) =>
    match Json.parse text with
    | .ok document => pure (read host tree place document)
    | .error .malformed => pure (.error .notJson)
    | .error (.numeral defect) => throw (.numeral defect)
  | _ => throw .wrongShape

def restore (host : Host) (text root : Document) : Run (Option Graph) := do
  match ← Run.ofExcept (readUnder host (← Run.tree) text root) with
  | .ok graph => pure (some graph)
  | .error rejection =>
    Run.log Channel.storage .info rejection.message
    pure none

end DeclGraph.Saved
