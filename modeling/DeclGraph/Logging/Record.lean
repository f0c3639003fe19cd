import DeclGraph.Fault

/-!
Log records: who says what at which level.
-/

namespace DeclGraph

abbrev LogLevel := Int

namespace LogLevel

def debug : LogLevel := 10
def info : LogLevel := 20
def warning : LogLevel := 30
def error : LogLevel := 40
def critical : LogLevel := 50

def named : List (String × LogLevel) :=
  [("CRITICAL", critical), ("FATAL", critical), ("ERROR", error), ("WARN", warning),
    ("WARNING", warning), ("INFO", info), ("DEBUG", debug), ("NOTSET", 0)]

def ofName? (name : String) : Option LogLevel :=
  (named.find? fun entry => entry.1 = name).map (·.2)

/-- The name of a level; a level between the named ones shows its number. -/
def name (level : LogLevel) : String :=
  if level = critical then "CRITICAL"
  else if level = error then "ERROR"
  else if level = warning then "WARNING"
  else if level = info then "INFO"
  else if level = debug then "DEBUG"
  else if level = 0 then "NOTSET"
  else "Level " ++ toString level

/-- How a level given by a value is shown: a number by its name, and a name by its number. What is
neither shows as it is. -/
def shown (level : Document) : Except Fault Document :=
  match level.key? with
  | none => .error (.notName level.kindWord)
  | some (.text name) =>
    match ofName? name with
    | some number => .ok (.int number)
    | none => .ok (.text ("Level " ++ name))
  | some (.integer number) =>
    if number = 0 ∨ named.any (fun entry => entry.2 = number) then .ok (.text (name number))
    else .ok (.text ("Level " ++ level.display))
  | some _ => .ok (.text ("Level " ++ level.display))

end LogLevel

structure LogRecord where
  /-- The part of the program that speaks. -/
  channel : String
  level : LogLevel
  levelName : String := level.name
  message : String
  thread : String := "MainThread"
  /-- Further fields for structured logs. -/
  extra : Document := .null
  deriving Inhabited

def LogRecord.isLoggable (record : LogRecord) : Bool := 0 < record.level

namespace Channel

def root : String := "root"

def ofName (name : String) : String := if name = "" then root else name

def builder : String := "typedep_graph.graph_builder"
def storage : String := "typedep_graph.storage"
def service : String := "typedep_graph.service"
def settings : String := "typedep_graph.config"
def logging : String := "typedep_graph.logging_setup"
def toolServer : String := "typedep_graph.mcp_server"

end Channel

end DeclGraph
