import DeclGraph.Proofs.AnalysisQueues
import DeclGraph.Proofs.CachedGraphs
import DeclGraph.Proofs.GraphRuns
import DeclGraph.ToolServer

/-!
What a server answers over a whole session. Questions come in any order, and between them anything may happen to the
surroundings. Once the graph was obtained every answer comes from it, and the answers to different questions agree;
until then each question is a new attempt to obtain it.
-/

namespace DeclGraph

namespace GraphStore

open DeclGraph.Graph

theorem inStep_of_load {host : Host} {store : GraphStore} {graph : Graph} {world after : World}
    (loaded : (store.load host).outcome world = (.ok (some graph), after)) : InStep host.foldsCase graph := by
  have restored {text : String} {root : String}
      (accepted : Saved.readUnder host world.tree (.text text) (.text root) = .ok (.ok graph)) :
      InStep host.foldsCase graph := by
    have reloaded : (Saved.restore host (.text text) (.text root)).outcome world = (.ok (some graph), world) := by
      rw [Saved.restore_outcome, accepted]
    exact inStep_restored rfl reloaded
  match store with
  | .memory _ none => cases loaded
  | .memory root (some text) => exact inStep_restored rfl loaded
  | .file root trail =>
    obtain ⟨_, _, text, _, _, accepted⟩ := load_eq_some.mp loaded
    exact restored accepted

end GraphStore

namespace Service

open DeclGraph.Graph

theorem inStep_of_loadOrBuild {host : Host} {service : Service} {root units : Document} {force : Bool} {graph : Graph}
    {world after : World} (ran : (service.loadOrBuild host root units force).outcome world = (.ok graph, after)) :
    InStep host.foldsCase graph := by
  rcases loadOrBuild_outcome host service root units force world with
    ⟨_, _, failed, _⟩ | ⟨place, store, loaded, opened, ⟨found, _, load, given⟩ | ⟨_, built⟩⟩
  · cases failed.symm.trans ran
  · cases given.symm.trans ran
    exact GraphStore.inStep_of_load load
  · rw [built] at ran
    obtain ⟨analyzed, _, analysis, _⟩ := rebuild_eq_ok ran
    have located : host.locate place = .ok place := locateRoot_text (canonical_of_locateRoot opened.located)
    have builtFrom := analyzeUnder_eq_ok located analysis
    refine ⟨builtFrom.coherent, fun file key => ?_⟩
    obtain ⟨row, member, rfl⟩ := List.mem_map.mp key
    exact settled_of_locate rfl (builtFrom.there row.1 (Or.inl ⟨row, member, Or.inl rfl⟩)).1

end Service

namespace Graph

open DependencyMap

section Rows

variable {map : DependencyMap} {file : String}

theorem find?_rows (rows : DependencyMap) (file : String) :
    Entries.find? (rows.map fun row => (.text row.1, .texts row.2)) (.text file) = (rows.find? file).map .texts := by
  induction rows with
  | nil => rfl
  | cons row rest ih =>
    obtain ⟨key, set⟩ := row
    by_cases here : key = file
    · simp [Entries.find?, DependencyMap.find?, Scalar.key, here]
    · simpa [Entries.find?, DependencyMap.find?, Scalar.key, here] using ih

theorem field_mapDocument (formed : map.WellFormed) (key : file ∈ map.keys) :
    (mapDocument map).field file = .texts (map.get file) := by
  have order : map.sorted.Perm map := List.mergeSort_perm map _
  obtain ⟨row, member, rfl⟩ := List.mem_map.mp key
  have distinct : map.sorted.keys.Nodup := (order.map _).nodup_iff.mpr formed.distinct
  have found : map.sorted.find? row.1 = some row.2 := find?_of_mem distinct (order.mem_iff.mpr member)
  have rows := find?_rows map.sorted row.1
  rw [found] at rows
  have written : mapDocument map = .map (map.sorted.map fun row => (.text row.1, .texts row.2)) := by
    rw [mapDocument, Document.object, List.map_map]
    rfl
  rw [written, get_of_mem formed.distinct member]
  simp [Document.field, Document.entries?, Document.opened, Entries.get, rows]

end Rows

end Graph

namespace ToolServer

open DeclGraph.Graph

/-- What a server can be asked. -/
inductive Question where
  | file (path : Document)
  | queue
  | whole

def exported (server : ToolServer) (graph summarised : Graph) : Document :=
  match graph.toDocument (.text server.root) with
  | .map entries => .map (entries ++ [(.text "summary", summarised.summary.document)])
  | other => other

def answer (host : Host) (server : ToolServer) (graph : Graph) : Question → Except Fault Document
  | .file path => server.contextOf host graph path
  | .queue => .ok (queueDocument graph)
  | .whole => .ok (server.graphDocument graph)

section Agreement

variable {host : Host} {server : ToolServer} {graph : Graph}

theorem resolveFile_settled {file : String} (settled : host.locate file = .ok file) :
    server.resolveFile host (.text file) = .ok file := by
  obtain ⟨given, fixed⟩ := Host.locate_eq_ok.mp settled
  obtain ⟨place, _, text⟩ := Host.isCanonical_of_fixed fixed
  have rooted : Path.isAbsolute file = true := text ▸ Path.isAbsolute_text place
  have joined : Path.joinTo server.root file = file := Path.absolute_of_isAbsolute rooted server.root
  simp [resolveFile, Document.isSet, given, joined, settled]

def sides : List String := ["upstream", "downstream"]

/-- The answers of a graph agree with each other: as many files are queued as the graph counts, and of each queued file
the queue, the question for the file and the graph tell the same neighbours. -/
def Agree (answers : Question → Except Fault Document) : Prop :=
  ∃ queue whole entries, answers .queue = .ok queue ∧ answers .whole = .ok whole
    ∧ queue.field "queue" = .list entries ∧ queue.field "total" = .nat entries.length
    ∧ whole.field "total_files" = .nat entries.length
    ∧ ∀ entry ∈ entries, ∃ file reply, entry.field "file" = .text file ∧ answers (.file (.text file)) = .ok reply
      ∧ reply.field "file" = .text file ∧ ∀ side ∈ sides, ∃ files, entry.field side = .texts files
        ∧ reply.field side = .texts files ∧ (whole.field side).field file = .texts files

theorem field_graphDocument (server : ToolServer) (graph : Graph) :
    (server.graphDocument graph).field "upstream" = mapDocument graph.upstream
      ∧ (server.graphDocument graph).field "downstream" = mapDocument graph.downstream
      ∧ (server.graphDocument graph).field "total_files" = .nat graph.files.length := ⟨rfl, rfl, rfl⟩

theorem agree_of_inStep (inStep : InStep host.foldsCase graph) : Agree (server.answer host graph) := by
  obtain ⟨upstream, downstream, total⟩ := field_graphDocument server graph
  refine ⟨_, _, (graph.queueOf graph.files).map QueuedFile.document, rfl, rfl, rfl, ?_, ?_, ?_⟩
  · rw [List.length_map]
    rfl
  · rw [total, List.length_map, length_queueOf]
  · intro written listed
    obtain ⟨entry, member, rfl⟩ := List.mem_map.mp listed
    obtain ⟨file, inside, context⟩ := context_of_mem_queueOf member
    have key := (inStep.coherent.mem_files file).mp inside
    have placed : server.resolveFile host (.text file) = .ok file :=
      resolveFile_settled (inStep.settled file key host rfl)
    refine ⟨file, .object (graph.contextOf file).fields, ?_, ?_, rfl, ?_⟩
    · rw [QueuedFile.document, context]
      rfl
    · exact bind_eq_ok.mpr ⟨file, placed, rfl⟩
    · rw [QueuedFile.document, context]
      simp only [sides, List.forall_mem_cons, upstream, downstream]
      refine ⟨⟨_, rfl, rfl, ?_⟩, ⟨_, rfl, rfl, ?_⟩, by simp⟩
      · exact field_mapDocument inStep.coherent.upstreamFormed key
      · exact field_mapDocument inStep.coherent.downstreamFormed ((inStep.coherent.sameKeys file).mp key)

end Agreement

/-- A server in its surroundings, with what each attempt to obtain the graph came to, oldest first. -/
structure Session where
  server : ToolServer
  world : World
  attempts : List (Except Fault Graph) := []

namespace Session

def attempt (host : Host) (session : Session) : Except Fault Graph × World :=
  (session.server.service.loadOrBuild host (.text session.server.root) (.list session.server.units) false).outcome
    session.world

def fetch (host : Host) (session : Session) : Except Fault Graph × Session :=
  match session.server.graph with
  | some graph => (.ok graph, session)
  | none =>
    match session.attempt host with
    | (.ok graph, after) =>
      (.ok graph, ⟨{ session.server with graph := some graph }, after, session.attempts ++ [.ok graph]⟩)
    | (.error fault, after) => (.error fault, ⟨session.server, after, session.attempts ++ [.error fault]⟩)

def ask (host : Host) (session : Session) (question : Question) : Except Fault Document × Session :=
  match session.fetch host with
  | (.error fault, next) => (.error fault, next)
  | (.ok graph, next) =>
    match question with
    | .whole =>
      match next.fetch host with
      | (.error fault, last) => (.error fault, last)
      | (.ok summarised, last) => (.ok (next.server.exported graph summarised), last)
    | other => (next.server.answer host graph other, next)

/-- The sessions that one leads to by questions, while anything may happen to the surroundings: files come and go, and
services are asked to stop. -/
inductive Leads (host : Host) (session : Session) : Session → Prop
  | refl : Leads host session session
  | asked {next : Session} (earlier : Leads host session next) (question : Question) :
      Leads host session (next.ask host question).2
  | elsewhere {next : Session} (earlier : Leads host session next) (world : World) :
      Leads host session { next with world }

section Steps

variable {host : Host} {session : Session} {graph : Graph}

theorem fetch_kept (kept : session.server.graph = some graph) : session.fetch host = (.ok graph, session) := by
  rw [fetch, kept]

theorem ask_kept (kept : session.server.graph = some graph) (question : Question) :
    session.ask host question = (session.server.answer host graph question, session) := by
  rw [ask, fetch_kept kept]
  cases question with
  | file path => rfl
  | queue => rfl
  | whole =>
    simp only [fetch_kept kept]
    rfl

theorem ask_fresh (fresh : session.server.graph = none) (question : Question) :
    session.ask host question = match session.attempt host with
      | (.ok graph, after) => (session.server.answer host graph question,
        ⟨{ session.server with graph := some graph }, after, session.attempts ++ [.ok graph]⟩)
      | (.error fault, after) => (.error fault, ⟨session.server, after, session.attempts ++ [.error fault]⟩) := by
  rw [ask, fetch, fresh]
  rcases session.attempt host with ⟨fault | graph, after⟩
  · rfl
  · cases question with
    | file path => rfl
    | queue => rfl
    | whole => rfl

/-- How far a session has come: attempts failed, or the last attempt gave the graph. -/
inductive Stage (host : Host) (server : ToolServer) : Session → Prop
  | trying {world : World} {attempts : List (Except Fault Graph)}
      (failed : ∀ result ∈ attempts, ∃ fault, result = .error fault) : Stage host server ⟨server, world, attempts⟩
  | settled {world : World} {failures : List (Except Fault Graph)} {graph : Graph}
      (failed : ∀ result ∈ failures, ∃ fault, result = .error fault) (inStep : InStep host.foldsCase graph) :
      Stage host server ⟨{ server with graph := some graph }, world, failures ++ [.ok graph]⟩

theorem stage_ask {server : ToolServer} (fresh : server.graph = none) (stage : Stage host server session)
    (question : Question) : Stage host server (session.ask host question).2 := by
  cases stage with
  | @trying world attempts failed =>
    rw [ask_fresh fresh]
    rcases tried : attempt host ⟨server, world, attempts⟩ with ⟨fault | graph, after⟩
    · refine .trying fun result member => ?_
      rcases List.mem_append.mp member with old | new
      · exact failed result old
      · exact ⟨fault, List.mem_singleton.mp new⟩
    · exact .settled failed (Service.inStep_of_loadOrBuild tried)
  | settled failed inStep =>
    rw [ask_kept rfl]
    exact .settled failed inStep

theorem stage_of_leads {server : ToolServer} {world : World} (fresh : server.graph = none)
    (leads : Leads host ⟨server, world, []⟩ session) : Stage host server session := by
  induction leads with
  | refl => exact .trying (by simp)
  | asked _ question stage => exact stage_ask fresh stage question
  | elsewhere _ world stage =>
    cases stage with
    | trying failed => exact .trying failed
    | settled failed inStep => exact .settled failed inStep

/-- Whatever a session with the graph leads to has made no further attempt. -/
theorem kept_of_leads {later : Session} (kept : session.server.graph = some graph)
    (leads : Leads host session later) : later.server = session.server ∧ later.attempts = session.attempts := by
  induction leads with
  | refl => exact ⟨rfl, rfl⟩
  | asked _ question same =>
    have still := same.1.symm ▸ kept
    rw [ask_kept still]
    exact same
  | elsewhere _ world same => exact same

theorem outcome_obtain (host : Host) (session : Session) : (session.server.obtain host).outcome session.world =
    match session.fetch host with
    | (.ok graph, next) => (.ok (graph, next.server), next.world)
    | (.error fault, next) => (.error fault, next.world) := by
  rw [obtain, fetch, attempt]
  rcases session.server.graph with _ | graph
  · rw [Run.outcome_bind]
    rcases (session.server.service.loadOrBuild host (.text session.server.root) (.list session.server.units) false).outcome
      session.world with ⟨fault | graph, after⟩
    · rfl
    · rfl
  · rfl

theorem server_of_fetch_error {fault : Fault} {next : Session} (failed : session.fetch host = (.error fault, next)) :
    next.server = session.server := by
  cases fresh : session.server.graph with
  | some graph =>
    rw [fetch_kept fresh] at failed
    cases failed
  | none =>
    rw [fetch, fresh] at failed
    rcases tried : session.attempt host with ⟨fault | graph, after⟩
    · rw [tried] at failed
      cases failed
      rfl
    · rw [tried] at failed
      cases failed

end Steps

def questionOf (tool : String) (arguments : Document) : Option Question :=
  match tool with
  | "get_file_dependencies" => some (.file (arguments.field "file_path"))
  | "get_analysis_queue" => some .queue
  | "get_dependency_graph" => some .whole
  | _ => none

/-- What a question comes to, in terms of one fetched graph. -/
theorem ask_eq (host : Host) (session : Session) (question : Question) : session.ask host question =
    match session.fetch host with
    | (.ok graph, next) => (session.server.answer host graph question, next)
    | (.error fault, next) => (.error fault, next) := by
  cases fresh : session.server.graph with
  | some graph => rw [ask_kept fresh, fetch_kept fresh]
  | none =>
    rw [ask_fresh fresh, fetch, fresh]
    rcases session.attempt host with ⟨fault | graph, after⟩
    · rfl
    · rfl

/-- A tool replies with the answer to its question, or with the report of the failure. -/
theorem call_eq_ask (host : Host) (session : Session) {tool : String} {arguments : Document} {question : Question}
    (asked : questionOf tool arguments = some question) :
    ∃ notes, session.server.call host tool arguments session.world =
      (⟨notes, (session.ask host question).1.mapError (failureText tool)⟩, (session.ask host question).2.server,
        (session.ask host question).2.world) := by
  have obtained := outcome_obtain host session
  rw [ask_eq]
  rcases fetched : session.fetch host with ⟨fault | graph, next⟩
  · rw [fetched] at obtained
    have still := server_of_fetch_error fetched
    unfold questionOf at asked
    split at asked
    · cases asked
      simp only [call, obtained, still]
      exact ⟨_, rfl⟩
    · cases asked
      simp only [call, obtained, still]
      exact ⟨_, rfl⟩
    · cases asked
      simp only [call, obtained, still]
      exact ⟨_, rfl⟩
    · cases asked
  · rw [fetched] at obtained
    unfold questionOf at asked
    split at asked
    · cases asked
      simp only [call, obtained, answer]
      cases session.server.contextOf host graph (arguments.field "file_path") with
      | error fault => exact ⟨_, rfl⟩
      | ok value => exact ⟨_, rfl⟩
    · cases asked
      simp only [call, obtained]
      exact ⟨_, rfl⟩
    · cases asked
      simp only [call, obtained]
      exact ⟨_, rfl⟩
    · cases asked

/-- Over a whole session of a server that starts without the graph, either every attempt to obtain it has failed, the
server is as it was and the next question is a new attempt; or the last attempt gave the graph, no attempt follows, all
further answers and tool replies come from that graph, and they agree with each other. -/
theorem answers_from_one_graph {host : Host} {server : ToolServer} {world : World} {session : Session}
    (fresh : server.graph = none) (leads : Leads host ⟨server, world, []⟩ session) :
    (session.server = server ∧ (∀ result ∈ session.attempts, ∃ fault, result = .error fault)
      ∧ ∀ question, session.ask host question =
        match (server.service.loadOrBuild host (.text server.root) (.list server.units) false).outcome session.world with
        | (.ok graph, after) => (server.answer host graph question,
          ⟨{ server with graph := some graph }, after, session.attempts ++ [.ok graph]⟩)
        | (.error fault, after) => (.error fault, ⟨server, after, session.attempts ++ [.error fault]⟩))
    ∨ ∃ graph failures, session.attempts = failures ++ [.ok graph]
      ∧ (∀ result ∈ failures, ∃ fault, result = .error fault) ∧ Agree (server.answer host graph)
      ∧ ∀ later, Leads host session later → later.attempts = session.attempts
        ∧ ∀ question, later.ask host question = (server.answer host graph question, later)
          ∧ ∀ tool arguments, questionOf tool arguments = some question →
            ∃ notes, later.server.call host tool arguments later.world =
              (⟨notes, (server.answer host graph question).mapError (failureText tool)⟩, later.server, later.world) := by
  have stage := stage_of_leads fresh leads
  clear leads
  cases stage with
  | trying failed => exact Or.inl ⟨rfl, failed, ask_fresh fresh⟩
  | @settled now failures graph failed inStep =>
    refine Or.inr ⟨graph, failures, rfl, failed, agree_of_inStep inStep, fun later leads => ?_⟩
    obtain ⟨same, attempts⟩ := kept_of_leads rfl leads
    refine ⟨attempts, fun question => ?_⟩
    have asked : later.ask host question = (server.answer host graph question, later) := by
      rw [ask_kept (congrArg ToolServer.graph same), same]
      cases question with
      | file path => rfl
      | queue => rfl
      | whole => rfl
    refine ⟨asked, fun tool arguments named => ?_⟩
    have called := call_eq_ask host later named
    rwa [asked] at called

def keptWorld : World where
  tree := ⟨Saved.sampleTree.entries ++ [(["w", ".typedep_graph"], .directory),
    (["w", ".typedep_graph", "metadata"], .directory),
    (["w", ".typedep_graph", "metadata", "graph.json"], .file (Json.write .plain Saved.sampleDocument).toUTF8)]⟩

def sampleServer : ToolServer := ⟨"/w", [.text "/w/u.json"], Service.sampleService, none⟩

def sampleStart : Session := ⟨sampleServer, { tree := ⟨[]⟩ }, []⟩

/-- The first question fails, as the project is missing; the second finds the saved graph. -/
theorem answers_from_one_graph_retried : ∃ session fault, Leads Saved.sampleHost sampleStart session
    ∧ session.attempts = [.error fault, .ok Saved.sampleGraph]
    ∧ Agree (sampleServer.answer Saved.sampleHost Saved.sampleGraph)
    ∧ ∀ later, Leads Saved.sampleHost session later → later.attempts = session.attempts
      ∧ later.ask Saved.sampleHost .queue = (.ok (queueDocument Saved.sampleGraph), later) := by
  obtain ⟨fault, after, failed⟩ : ∃ fault after, sampleStart.attempt Saved.sampleHost = (.error fault, after) :=
    ⟨_, _, rfl⟩
  have missed : (sampleStart.ask Saved.sampleHost .queue).2 = ⟨sampleServer, after, [.error fault]⟩ := by
    rw [ask_fresh rfl, failed]
    rfl
  obtain ⟨final, found⟩ : ∃ final, attempt Saved.sampleHost ⟨sampleServer, keptWorld, [.error fault]⟩ =
      (.ok Saved.sampleGraph, final) := by
    have given : ((Service.sampleService.loadOrBuild Saved.sampleHost (.text "/w") (.list [.text "/w/u.json"]) false).outcome
        keptWorld).1.toOption = some Saved.sampleGraph := by
      decide +kernel
    rcases ran : (Service.sampleService.loadOrBuild Saved.sampleHost (.text "/w") (.list [.text "/w/u.json"]) false).outcome
      keptWorld with ⟨result, final⟩
    rw [ran] at given
    cases eq_ok_of_toOption given
    exact ⟨final, ran⟩
  have asked : (ask Saved.sampleHost ⟨sampleServer, keptWorld, [.error fault]⟩ .whole).2 =
      ⟨{ sampleServer with graph := some Saved.sampleGraph }, final, [.error fault, .ok Saved.sampleGraph]⟩ := by
    rw [ask_fresh rfl, found]
    rfl
  have leads : Leads Saved.sampleHost sampleStart
      ⟨{ sampleServer with graph := some Saved.sampleGraph }, final, [.error fault, .ok Saved.sampleGraph]⟩ := by
    have moved : Leads Saved.sampleHost sampleStart
        { (sampleStart.ask Saved.sampleHost .queue).2 with world := keptWorld } :=
      .elsewhere (.asked .refl .queue) keptWorld
    rw [missed] at moved
    rw [← asked]
    exact .asked moved .whole
  rcases answers_from_one_graph rfl leads with ⟨_, failures, _⟩ | ⟨graph, failures, attempts, _, agree, kept⟩
  · obtain ⟨_, impossible⟩ := failures (.ok Saved.sampleGraph) (by simp)
    cases impossible
  · have last := congrArg List.getLast? attempts
    rw [List.getLast?_concat] at last
    cases last
    exact ⟨_, fault, leads, rfl, agree, fun later leads => ⟨(kept later leads).1, ((kept later leads).2 .queue).1⟩⟩

end Session

end ToolServer

end DeclGraph
