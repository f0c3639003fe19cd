import DeclGraph.CommandLine.Grammar
import DeclGraph.Settings
import DeclGraph.ToolServer

/-!
The commands of the tool and how they are written.
-/

namespace DeclGraph.CommandLine

inductive Command where
  | build (root : String) (units : List String) (force : Bool)
  | inspect (root file : String) (units : List String)
  | queue (root : String) (units : List String)
  | serve (root : String) (units : List String) (transport : String)
  deriving Repr, Inhabited

structure Invocation where
  settings : Option String
  logDirectory : Option String
  logLevel : Option String
  command : Command
  deriving Repr, Inhabited

def anyText : String → Option String := some

def oneOf (choices : List String) (text : String) : Option String :=
  if text ∈ choices then some text else none

def outer : Grammar where
  options :=
    [⟨"--config", some anyText⟩, ⟨"--log-dir", some anyText⟩,
      ⟨"--log-level", some fun text => oneOf Settings.logLevels (Text.upper text)⟩]
  positions := [⟨"command", .everything⟩]

def buildGrammar : Grammar where
  options := [⟨"--force", none⟩]
  positions := [⟨"root", .one⟩, ⟨"units", .oneOrMore⟩]

def inspectGrammar : Grammar where
  options := [⟨"--unit", some anyText⟩]
  positions := [⟨"root", .one⟩, ⟨"file", .one⟩]

def queueGrammar : Grammar where
  options := [⟨"--unit", some anyText⟩]
  positions := [⟨"root", .one⟩]

def serveGrammar : Grammar where
  options := [⟨"--transport", some (oneOf ToolServer.transports)⟩]
  positions := [⟨"root", .one⟩, ⟨"units", .anyNumber⟩]

def single (found : Found) (name : String) : Except Exit String :=
  match found.last? name with
  | some text => .ok text
  | none => .error .usage

def command (words : List String) : Except Exit Command := do
  match words with
  | "build" :: rest =>
    let found ← buildGrammar.parse rest
    pure (.build (← single found "root") (found.all "units") (!(found.all "--force").isEmpty))
  | "show" :: rest =>
    let found ← inspectGrammar.parse rest
    pure (.inspect (← single found "root") (← single found "file") (found.all "--unit"))
  | "queue" :: rest =>
    let found ← queueGrammar.parse rest
    pure (.queue (← single found "root") (found.all "--unit"))
  | "serve" :: rest =>
    let found ← serveGrammar.parse rest
    pure (.serve (← single found "root") (found.all "units")
      ((found.last? "--transport").getD "stdio"))
  | _ => throw .usage

/-- Reads a whole command line. The command's own words are looked at before it counts that a word in
front of them found no place. -/
def invocation (words : List String) : Except Exit Invocation := do
  let arranged ← outer.arranged words
  let found := arranged.found
  let command ← command (found.all "command")
  if !arranged.complete then throw .usage
  pure
    { settings := found.last? "--config"
      logDirectory := found.last? "--log-dir"
      logLevel := found.last? "--log-level"
      command }

end DeclGraph.CommandLine
