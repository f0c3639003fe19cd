import DeclGraph.Logging.Format

/-!
Where log records go: to the console, and to a log file of the day in a directory. Each keeps the
records from a level on.
-/

namespace DeclGraph

structure LogSetup where
  level : Document
  file : Option Path.Trail
  console : Bool
  deriving Inhabited

namespace LogSetup

def directoryName : String := ".typedep_graph_logs"

def fileName (host : Host) : String := "typedep_graph_" ++ host.day ++ ".log"

def passes (setup : LogSetup) (record : LogRecord) : Bool :=
  record.isLoggable && LogLevel.ofResolved setup.level ≤ record.level

def appendText (host : Host) (trail : Path.Trail) (text : String) : Run Unit := do
  let path := Path.absolute host.cwd trail.text
  let tree ← Run.tree
  let old ← match tree.read path with
    | .ok bytes => pure bytes
    | .error .missing => pure ByteArray.empty
    | .error cause => throw (.tree cause trail.text)
  Run.setTree (← Run.onTree trail.text (tree.writeFile path (old ++ text.toUTF8)))

def send (host : Host) (setup : LogSetup) (records : List LogRecord) : Run (List LogRecord) := do
  let kept := records.filter setup.passes
  match setup.file with
  | some trail =>
    appendText host trail (String.join (kept.map fun record => record.entry.line host ++ "\n"))
  | none => pure ()
  pure (if setup.console then kept else [])

def consoleOnly (level : Document) (settings : Option Settings) : Except Fault LogSetup := do
  pure ⟨← LogLevel.resolve level settings, none, true⟩

def openingRecord (directory file : Path.Trail) (level : String) : LogRecord where
  channel := Channel.logging
  level := .info
  message := "Logging to " ++ file.text ++ " at " ++ level
  extra := .object [("log_dir", .text directory.text)]

/-- Records go to a log file in a directory, and to the console if that is wanted. The directory is
made before the level is looked at. -/
def toFile (host : Host) (directory : Option String) (level : Document) (console : Bool)
    (settings : Option Settings) : Run LogSetup := do
  let trail := (directory.map Path.Trail.ofText).getD
    ((Path.Trail.ofText host.cwd).join directoryName)
  Run.makeDirectories host.cwd trail
  let resolved ← Run.ofExcept (LogLevel.resolve level settings)
  let file := trail.join (fileName host)
  appendText host file ""
  let shown ← Run.ofExcept (LogLevel.shown resolved)
  Run.record (openingRecord trail file shown.display)
  pure ⟨resolved, some file, console⟩

end LogSetup

end DeclGraph
