import DeclGraph.Graph.Query
import DeclGraph.Manifest.Frontend
import DeclGraph.Service

/-!
A server that answers questions about the graph of one project root. The graph is obtained on first
use and kept; a failure to obtain it leaves the server as it was.
-/

namespace DeclGraph

structure ToolServer where
  /-- The canonical path of the project root. -/
  root : String
  units : List Document
  service : Service
  /-- The graph, once it was obtained. -/
  graph : Option Graph

namespace ToolServer

def name : String := "typedep-graph"

def tools : List String := ["get_file_dependencies", "get_analysis_queue", "get_dependency_graph"]

def transports : List String := ["stdio", "streamable-http", "sse"]

def create (host : Host) (root units : Document) (service : Except Fault Service) :
    Run ToolServer := do
  let place ← Run.ofExcept (host.locateValue root)
  match units.elements? with
  | none => throw (.notIterable units.kindWord)
  | some units =>
    let service ← Run.ofExcept service
    Run.log Channel.toolServer .info ("MCP tools registered: " ++ ", ".intercalate tools)
    Run.log Channel.toolServer .info ("DependencyGraphMCPServer initialized for " ++ place)
    pure ⟨place, units, service, none⟩

-- The graph, obtained on first use, and the server that keeps it.
def obtain (host : Host) (server : ToolServer) : Run (Graph × ToolServer) := do
  match server.graph with
  | some graph => pure (graph, server)
  | none =>
    let graph ← server.service.loadOrBuild host (.text server.root) (.list server.units) false
    pure (graph, { server with graph := some graph })

def resolveFile (host : Host) (server : ToolServer) (file : Document) : Except Fault String :=
  if !file.isSet then .error .emptyFilePath
  else
    match file with
    | .scalar (.text path) => host.locate (Path.joinTo server.root path)
    | _ => .error (.notSpelling file.kindWord)

def contextOf (host : Host) (server : ToolServer) (graph : Graph) (file : Document) :
    Except Fault Document := do
  let place ← server.resolveFile host file
  pure (.object (graph.contextOf place).fields)

def queueDocument (graph : Graph) : Document :=
  let queue := graph.queueOf graph.files
  .object [("queue", .list (queue.map QueuedFile.document)), ("total", .nat queue.length)]

def graphDocument (server : ToolServer) (graph : Graph) : Document :=
  match graph.toDocument (.text server.root) with
  | .map entries => .map (entries ++ [(.text "summary", graph.summary.document)])
  | other => other

def start (transport : Document) : Run Unit := do
  match transport.text? with
  | some text =>
    if text ∈ transports then
      Run.log Channel.toolServer .info ("Starting MCP server with " ++ text ++ " transport")
    else throw (.unknownTransport transport)
  | none => throw (.unknownTransport transport)

inductive Note where
  | info (text : String)
  | error (text : String)
  deriving Repr, Inhabited

structure Reply where
  notes : List Note
  value : Except String Document

def failureText (tool : String) (fault : Fault) : String :=
  "Error executing tool " ++ tool ++ ": " ++ fault.report

def call (host : Host) (server : ToolServer) (tool : String) (arguments : Document)
    (world : World) : Reply × ToolServer × World :=
  let obtained := (server.obtain host).outcome world
  let attempt (answer : Graph → Except Fault Document) : Except Fault Document × ToolServer × World :=
    match obtained with
    | (.ok (graph, kept), after) => (answer graph, kept, after)
    | (.error fault, after) => (.error fault, server, after)
  match tool with
  | "get_file_dependencies" =>
    let file := arguments.field "file_path"
    let note := Note.info ("Getting dependencies of " ++ file.display)
    match attempt fun graph => server.contextOf host graph file with
    | (.ok value, kept, after) => (⟨[note], .ok value⟩, kept, after)
    | (.error fault, kept, after) => (⟨[note], .error (failureText tool fault)⟩, kept, after)
  | "get_analysis_queue" =>
    let note := Note.info "Building analysis queue"
    match attempt fun graph => .ok (queueDocument graph) with
    | (.ok value, kept, after) => (⟨[note], .ok value⟩, kept, after)
    | (.error fault, kept, after) =>
      (⟨[note, .error ("Error building analysis queue: " ++ fault.report)],
        .error (failureText tool fault)⟩, kept, after)
  | "get_dependency_graph" =>
    let note := Note.info "Exporting dependency graph"
    match attempt fun graph => .ok (server.graphDocument graph) with
    | (.ok value, kept, after) =>
      let done := Note.info ("Graph exported: " ++ (value.field "total_files").display ++ " files, "
        ++ (value.field "total_edges").display ++ " edges")
      (⟨[note, done], .ok value⟩, kept, after)
    | (.error fault, kept, after) =>
      (⟨[note, .error ("Error exporting dependency graph: " ++ fault.report)],
        .error (failureText tool fault)⟩, kept, after)
  | _ => (⟨[], .error ("Unknown tool: " ++ tool)⟩, server, world)

end ToolServer

end DeclGraph
