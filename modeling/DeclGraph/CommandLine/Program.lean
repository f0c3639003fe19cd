import DeclGraph.CommandLine.Invocation
import DeclGraph.Json.Writer
import DeclGraph.Logging.Setup
import DeclGraph.ToolServer

/-!
Runs a command line: settings first, then the log, then the command. Results go to the output as
indented JSON, the log and the report of a failure to the error output.
-/

namespace DeclGraph.CommandLine

structure Result where
  status : Nat
  output : String
  errorLines : List String
  deriving Repr, Inhabited

inductive Ending where
  | ran (result : Result)
  | exited (exit : Exit)
  deriving Repr, Inhabited

/-- The file to show: a relative one is seen from the root. -/
def resolveFile (root file : String) : String :=
  let trail := Path.Trail.ofText file
  (if trail.root = "" then (Path.Trail.ofText root).append trail else trail).text

def printed (document : Document) : String := Json.write .pretty document ++ "\n"

-- Runs a command with a service; the output is returned.
def execute (host : Host) (service : Service) : Command → Run String
  | .build root units force => do
    let graph ← service.loadOrBuild host (.text root) (.texts units) force
    pure (printed graph.summary.document)
  | .inspect root file units => do
    let graph ← service.loadOrBuild host (.text root) (.texts units) false
    let place ← Run.ofExcept (host.locate (resolveFile root file))
    pure (printed (.object (graph.contextOf place).fields))
  | .queue root units => do
    let graph ← service.loadOrBuild host (.text root) (.texts units) false
    pure (printed (.list ((graph.queueOf graph.files).map QueuedFile.document)))
  | .serve root units transport => do
    let _ ← ToolServer.create host (.text root) (.texts units) (.ok service)
    ToolServer.start (.text transport)
    pure ""

def isReported : FaultKind → Bool
  | .graphUnavailable | .malformedManifest | .analysisCancelled | .wrongValue | .undecodable
  | .unencodable | .tree _ => true
  | _ => false

/-- The report of a failure. What the host says about a path or about bytes is cut. -/
def errorText (fault : Fault) : String :=
  match fault with
  | .tree .holdsNul _ => "Error: " ++ fault.report
  | .undecodable _ | .unencodable _ | .tree .unnameable _ => "Error: 'utf-8' codec"
  | .tree cause _ => "Error: [Errno " ++ toString cause.number ++ "]"
  | _ => "Error: " ++ fault.report

def startsWith (start text : String) : Bool := start.toList.isPrefixOf text.toList

def isNotice (line : String) : Bool :=
  ["Error: ", "Unknown configuration", "Invalid value", "Configuration file", "Error parsing",
    "Error reading"].any fun start => startsWith start line

def linesOf (text : String) : List String :=
  (Path.pieces '\n' text.toList).map String.ofList

inductive ErrorLine where
  /-- The line that a record begins with. -/
  | record (channel level message : String)
  | notice (text : String)
  deriving Repr, Inhabited

def ErrorLine.text : ErrorLine → String
  | .record channel level message => channel ++ " - " ++ level ++ " - " ++ message
  | .notice text => text

def noticesIn (lines : List String) : List ErrorLine := (lines.filter isNotice).map ErrorLine.notice

def shownLevels : List String := ["INFO", "WARNING", "ERROR", "CRITICAL"]

/-- The lines of a record on the console: the first, if its level is shown, and others that are
notices. -/
def consoleLines (record : LogRecord) : List ErrorLine :=
  let level := record.levelName
  match linesOf record.channel, linesOf record.message with
  | [channel], first :: rest =>
    (if level ∈ shownLevels then [.record channel level first] else []) ++ noticesIn rest
  | _, _ => noticesIn ((linesOf record.consoleLine).drop 1)

/-- Reports on settings, before the log is set up: warnings by their text alone. -/
def noticesOf (records : List LogRecord) : List ErrorLine :=
  (records.filter fun record => decide (LogLevel.warning ≤ record.level)).flatMap fun record =>
    noticesIn (linesOf record.message)

def setUpLog (host : Host) (call : Invocation) (settings : Settings) : Run LogSetup :=
  let level : Document := (call.logLevel.map Document.text).getD .null
  match call.logDirectory with
  | some directory => LogSetup.toFile host (some directory) level true (some settings)
  | none => Run.ofExcept (LogSetup.consoleOnly level (some settings))

/-- What is said of one analysed unit after another may come in any order. -/
def isAnalyzed (message : String) : Bool := startsWith "Analyzed compilation unit" message

def settleOrder {α : Type} (message? : α → Option String) : Nat → List α → List α
  | 0, entries => entries
  | _ + 1, [] => []
  | fuel + 1, entry :: rest =>
    let floats (entry : α) : Bool := (message? entry).any isAnalyzed
    if floats entry then
      let same := entry :: rest.takeWhile floats
      same.mergeSort (fun a b => decide ((message? a).getD "" ≤ (message? b).getD ""))
        ++ settleOrder message? fuel (rest.dropWhile floats)
    else entry :: settleOrder message? fuel rest

def settled (records : List LogRecord) : List LogRecord :=
  settleOrder (fun record => some record.message) records.length records

def ErrorLine.message? : ErrorLine → Option String
  | .record _ _ message => some message
  | .notice _ => none

def errorTexts (lines : List ErrorLine) : List String :=
  (settleOrder ErrorLine.message? lines.length lines).map ErrorLine.text

/-- Runs an invocation. Failures while settings and log are set up are not reported here. -/
def perform (host : Host) (call : Invocation) : Run Result := do
  let before := (← get).journal.length
  let settings ← Settings.loadFrom host call.settings
  let configured := (← get).journal.length
  let notices := noticesOf ((← get).journal.drop before)
  let setup ← setUpLog host call settings
  let service ← Run.ofExcept (Service.create host settings (.frontend (Manifest.frontend host)) 0)
  let (outcome, after) := (execute host service call.command).outcome (← get)
  set after
  let shown ← setup.send host (after.journal.drop configured)
  let lines := notices ++ shown.flatMap consoleLines
  match outcome with
  | .ok output => pure ⟨0, output, errorTexts lines⟩
  | .error fault =>
    if isReported fault.kind then
      pure ⟨1, "", errorTexts (lines ++ noticesIn (linesOf (errorText fault)))⟩
    else throw fault

def run (host : Host) (words : List String) : Run Ending := do
  match invocation words with
  | .error exit => pure (.exited exit)
  | .ok call => .ran <$> perform host call

end DeclGraph.CommandLine
