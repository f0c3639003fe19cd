import DeclGraph.Run
import DeclGraph.Text.Lines
import DeclGraph.Yaml.Reader

/-!
Settings of a project, read from a YAML file. What is missing, unknown or not acceptable leaves the
default in place and is reported in the log.
-/

namespace DeclGraph

structure Settings where
  path : String
  /-- The name of the cache directory under a project root. -/
  cacheDirName : String := ".typedep_graph"
  graphFileName : String := "graph.json"
  /-- Saved graphs are used and written. -/
  enableGraphCache : Bool := true
  /-- Units analysed at once; zero leaves it to the host. -/
  maxWorkers : Int := 0
  /-- Endings of markup files. -/
  markupExtensions : List String := [".razor", ".cshtml"]
  logLevel : String := "INFO"
  deriving Repr, Inhabited

namespace Settings

def fileName : String := ".typedep_graph.yml"

def logLevels : List String := ["DEBUG", "INFO", "WARNING", "ERROR", "CRITICAL"]

/-- A name of a file or directory: not empty and without separators. -/
def isName (name : String) : Bool :=
  name ≠ "" && name.toList.all fun c => c ≠ '/' && c ≠ '\\' && c ≠ '\x00'

def isEnding (ending : String) : Bool := ending.toList.head? = some '.'

inductive Verdict where
  | unknown
  | invalid (standard : String)
  | accepted (settings : Settings)

def verdict (settings : Settings) (key : Scalar) (value : Document) : Verdict :=
  match key with
  | .text "cache_dir_name" =>
    match value with
    | .scalar (.text name) =>
      if isName name then .accepted { settings with cacheDirName := name }
      else .invalid ".typedep_graph"
    | _ => .invalid ".typedep_graph"
  | .text "graph_file_name" =>
    match value with
    | .scalar (.text name) =>
      if isName name then .accepted { settings with graphFileName := name } else .invalid "graph.json"
    | _ => .invalid "graph.json"
  | .text "enable_graph_cache" =>
    match value with
    | .scalar (.bool enabled) => .accepted { settings with enableGraphCache := enabled }
    | _ => .invalid "True"
  | .text "max_workers" =>
    match value with
    | .scalar (.int count) =>
      if 0 ≤ count then .accepted { settings with maxWorkers := count } else .invalid "0"
    | _ => .invalid "0"
  | .text "markup_extensions" =>
    let standard := "['.razor', '.cshtml']"
    match value.items?.bind fun items => items.mapM Document.text? with
    | some endings =>
      if endings.all isEnding then .accepted { settings with markupExtensions := endings }
      else .invalid standard
    | none => .invalid standard
  | .text "log_level" =>
    match value with
    | .scalar (.text level) =>
      if Text.upper level ∈ logLevels then .accepted { settings with logLevel := Text.upper level }
      else .invalid "INFO"
    | _ => .invalid "INFO"
  | _ => .unknown

abbrev Report := Except Fault String

def shown (value : Document) : Report :=
  if value.isShowable then .ok value.display else .error (.numeral .tooLongToWrite)

def complaint (key : Scalar) (value : Document) : Verdict → Option Report
  | .accepted _ => none
  | .unknown => some do
    return "Unknown configuration parameter '" ++ (← shown (.scalar key)) ++ "', ignoring"
  | .invalid standard => some do
    return "Invalid value for '" ++ (← shown (.scalar key)) ++ "': " ++ (← shown value)
      ++ ", using default " ++ standard

def takeOver : Settings → Entries → Settings × List Report
  | settings, [] => (settings, [])
  | settings, (key, value) :: rest =>
    let found := settings.verdict key value
    let kept := match found with
      | .accepted changed => changed
      | _ => settings
    let (final, reports) := takeOver kept rest
    (final, (complaint key value found).toList ++ reports)

-- Settings from the document in a settings file, and the reports.
def ofDocument (standard : Settings) (document : Document) : Settings × List Report :=
  if document.isNull then (standard, [.ok "Configuration file is empty, using defaults"])
  else
    match document.entries? with
    | some entries => standard.takeOver entries
    | none =>
      (standard, [.ok ("Configuration file must contain a YAML dictionary, got "
        ++ document.kindText ++ ", using defaults")])

def warn (message : String) : Run Unit := Run.log Channel.settings .warning message

def ofBytes (standard : Settings) (bytes : ByteArray) : Run Settings := do
  match Yaml.parse bytes with
  | .error (.unusable fault) => throw fault
  | .error _ =>
    warn ("Error parsing configuration file " ++ standard.path)
    pure standard
  | .ok document =>
    let (settings, reports) := standard.ofDocument document
    reports.forM fun report => do warn (← Run.ofExcept report)
    pure settings

def load (host : Host) (trail : Path.Trail) : Run Settings := do
  let standard : Settings := { path := trail.text }
  let full := Path.absolute host.cwd trail.text
  let tree ← Run.tree
  match ← Run.onTree trail.text (tree.probe full) with
  | none =>
    Run.log Channel.settings .info
      ("Configuration file not found at " ++ trail.text ++ ", using defaults")
    pure standard
  | some .directory =>
    warn ("Error reading configuration file " ++ trail.text)
    pure standard
  | some (.file bytes) => ofBytes standard bytes

def defaultTrail (host : Host) : Path.Trail := (Path.Trail.ofText host.cwd).join fileName

def loadFrom (host : Host) (path : Option String) : Run Settings :=
  load host ((path.map Path.Trail.ofText).getD (defaultTrail host))

/-- Settings from the file that a value names; nothing stands for the working directory. -/
def loadValue (host : Host) : Document → Run Settings
  | .scalar .null => loadFrom host none
  | .scalar (.text path) => loadFrom host (some path)
  | value => throw (.notSpelling value.kindWord)

end Settings

end DeclGraph
