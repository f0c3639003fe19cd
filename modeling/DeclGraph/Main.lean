import DeclGraph.CommandLine.Program
import Std.Time

/-!
The command line on a real machine. What lies at the working directory and at the places that the
words name is taken in, the command runs on that, and what it changed is written back.
-/

namespace DeclGraph.CommandLine

abbrev Survey := List (List String × FileEntry)

def pathText (names : List String) : String := "/" ++ "/".intercalate names

/-- Takes in a place and all below it. What cannot be read is left out. -/
partial def survey (names : List String) : IO Survey := do
  try
    let path ← IO.FS.realPath (pathText names)
    match (← path.metadata).type with
    | .dir =>
      let inner ← (← path.readDir).toList.mapM fun entry => survey (names ++ [entry.fileName])
      pure ((names, .directory) :: inner.flatten)
    | .file => pure [(names, .file (← IO.FS.readBinFile path))]
    | _ => pure []
  catch _ => pure []

/-- The places that a command line can lead to: the working directory, and for each word the place
that it names and the directory around it. -/
def placesOf (cwd : String) (words : List String) : List (List String) :=
  let named := words.map fun word => Path.follow (Path.segments (Path.absolute cwd word))
  Path.follow (Path.segments cwd) :: named ++ named.map List.dropLast

def outermost (places : List (List String)) : List (List String) :=
  let kept := places.filter fun place => place ≠ []
  (kept.filter fun place =>
    kept.all fun other => other = place || !other.isPrefixOf place).eraseDups

def treeOf (surveys : List Survey) : FileTree :=
  let around := surveys.foldl (fun (tree : FileTree) found =>
    match found with
    | (names, _) :: _ => tree.plant names.dropLast .directory
    | [] => tree) ⟨[]⟩
  ⟨around.entries ++ surveys.flatten⟩

def writeWhole (path : String) (content : ByteArray) : IO Unit := do
  let beside := path ++ ".tmp"
  IO.FS.writeBinFile beside content
  IO.FS.rename beside path

def writeBack (before after : FileTree) : IO Unit := do
  let changed := after.entries.filter fun entry => before.entry? entry.1 ≠ some entry.2
  let ordered := changed.mergeSort fun a b => a.1.length ≤ b.1.length
  for (names, entry) in ordered do
    match entry with
    | .directory => IO.FS.createDirAll (pathText names)
    | .file content => writeWhole (pathText names) content
  for (names, _) in before.entries do
    if (after.entry? names).isNone then IO.FS.removeFile (pathText names)

def currentHost : IO Host := do
  let cwd := toString (← IO.currentDir)
  let now := Std.Time.DateTime.ofTimestampWithZone (← Std.Time.Timestamp.now) .UTC
  pure {
    cwd, foldsCase := false, processors := 1
    day := now.format "uuuuMMdd"
    moment := now.format "uuuu-MM-dd'T'HH:mm:ss.SSSSSS'Z'" }

def runHere (words : List String) : IO UInt32 := do
  let host ← currentHost
  let surveys ← (outermost (placesOf host.cwd words)).mapM survey
  let before := treeOf surveys
  let (outcome, after) := (run host words).outcome { tree := before }
  writeBack before after.tree
  match outcome with
  | .error fault =>
    IO.eprintln fault.report
    pure 1
  | .ok (.exited exit) => pure (UInt32.ofNat exit.status)
  | .ok (.ran result) =>
    result.errorLines.forM fun line => IO.eprintln line
    IO.print result.output
    pure (UInt32.ofNat result.status)

end DeclGraph.CommandLine

def main (words : List String) : IO UInt32 := DeclGraph.CommandLine.runHere words
