import DeclGraph.Json.Writer
import DeclGraph.Logging.Record
import DeclGraph.Rows
import DeclGraph.Settings
import DeclGraph.Text.Template

/-!
How log records are written: as one JSON object a line in a log file, as a plain line on the console.
-/

namespace DeclGraph

structure LogEntry where
  level : Document
  channel : Document
  thread : String := "MainThread"
  message : String
  exception : Option String := none
  /-- Further fields. -/
  extra : Document := .null
  deriving Inhabited

namespace LogEntry

/-- The fields of a structured line. Further fields replace those of the same name. -/
def fields (host : Host) (entry : LogEntry) : List (String × Document) :=
  let base : List (String × Document) :=
    [("timestamp", .text host.moment), ("level", entry.level), ("logger", entry.channel),
      ("thread", .text entry.thread), ("message", .text entry.message)]
  let reported := match entry.exception with
    | some text => base ++ [("exception", .text text)]
    | none => base
  match entry.extra with
  | .map entries =>
    entries.foldl (fun fields entry => Rows.set fields (Document.scalar entry.1).display entry.2)
      reported
  | _ => reported

def line (host : Host) (entry : LogEntry) : String := Json.write .ascii (.object (entry.fields host))

end LogEntry

namespace LogRecord

def entry (record : LogRecord) : LogEntry where
  level := .text record.levelName
  channel := .text record.channel
  thread := record.thread
  message := record.message
  extra := record.extra

-- The console line of a record, without the time.
def consoleLine (record : LogRecord) : String :=
  record.channel ++ " - " ++ record.levelName ++ " - " ++ record.message

end LogRecord

def exceptionText (report : String) : String :=
  if report = "" then "ValueError" else "ValueError: " ++ report

namespace LogLevel

/-- The level that a value asks for, as a number or a truth value. Without a value the settings
decide, and without settings it is the level for information. -/
def resolve (level : Document) (settings : Option Settings) : Except Fault Document :=
  let wanted : Document := match level, settings with
    | .scalar .null, some settings => .text settings.logLevel
    | .scalar .null, none => .int info
    | level, _ => level
  match wanted with
  | .scalar (.int value) => .ok (.int value)
  | .scalar (.bool value) => .ok (.bool value)
  | wanted =>
    match ofName? (Text.upper wanted.display) with
    | some found => .ok (.int found)
    | none => .error (.unknownLogLevel wanted)

def ofResolved : Document → LogLevel
  | .scalar (.int value) => value
  | .scalar (.bool true) => 1
  | _ => 0

def ofSent? : Document → Option LogLevel
  | .scalar (.int value) => some value
  | .scalar (.bool value) => some (if value then 1 else 0)
  | _ => none

end LogLevel

namespace LogRecord

/-- The record that values describe. Only a text names a channel, and an unset one names the channel
above all others. -/
def ofValues (channel level message extra : Document) : Except Fault LogRecord := do
  let name ← match channel.ifSet with
    | none => pure ""
    | some (.scalar (.text name)) => pure name
    | some _ => throw .wrongShape
  match LogLevel.ofSent? level with
  | none => throw .wrongShape
  | some number =>
    let shown ← LogLevel.shown level
    pure
      { channel := Channel.ofName name, level := number, levelName := shown.display
        message := message.display, extra }

end LogRecord

end DeclGraph
