import DeclGraph.Proofs.DamagedCache
import DeclGraph.Proofs.StandardArtifact

/-!
A store in a file and a store in memory, run side by side. As long as nobody else touches the cache directory, every
write of a text that has bytes succeeds and the artifact holds the text that is held in memory. So both stores answer
alike. A text without bytes parts them: the store in memory alone takes it, until both take another or are cleared.
-/

namespace DeclGraph.GraphStore

open FileTree
open DeclGraph.Path (Location)

section Moves

inductive Move where
  | save (graph : GraphOperand)
  | load
  | clear

inductive Answer where
  | saved
  | loaded (graph : Option Graph)
  | cleared
  | failed (fault : Fault)

def perform (host : Host) (store : GraphStore) : Move → Run (GraphStore × Answer)
  | .save graph => do pure (← store.save host graph, .saved)
  | .load => do pure (store, .loaded (← store.load host))
  | .clear => do pure (← store.clear, .cleared)

structure Reply where
  answer : Answer
  store : GraphStore
  world : World

/-- A move that fails leaves the store as it was. -/
def reply (host : Host) (store : GraphStore) (move : Move) (world : World) : Reply :=
  match (store.perform host move).outcome world with
  | (.ok (next, answer), after) => ⟨answer, next, after⟩
  | (.error fault, after) => ⟨.failed fault, store, after⟩

variable {host : Host} {store next : GraphStore} {world after : World}

theorem reply_save {graph : GraphOperand} : store.reply host (.save graph) world =
    match (store.save host graph).outcome world with
    | (.ok next, after) => ⟨.saved, next, after⟩
    | (.error fault, after) => ⟨.failed fault, store, after⟩ := by
  rw [reply, perform, Run.outcome_bind]
  rcases (store.save host graph).outcome world with ⟨fault | next, after⟩
  · rfl
  · rfl

theorem reply_load : store.reply host .load world =
    match (store.load host).outcome world with
    | (.ok graph, after) => ⟨.loaded graph, store, after⟩
    | (.error fault, after) => ⟨.failed fault, store, after⟩ := by
  rw [reply, perform, Run.outcome_bind]
  rcases (store.load host).outcome world with ⟨fault | graph, after⟩
  · rfl
  · rfl

theorem answer_load {host : Host} {store : GraphStore} {world : World} {found : Option Graph}
    (loads : ((store.load host).outcome world).1.toOption = some found) :
    (store.reply host .load world).answer = .loaded found := by
  rw [reply_load]
  rcases ran : (store.load host).outcome world with ⟨result, after⟩
  rw [ran] at loads
  cases eq_ok_of_toOption loads
  rfl

theorem reply_clear : store.reply host .clear world =
    match store.clear.outcome world with
    | (.ok next, after) => ⟨.cleared, next, after⟩
    | (.error fault, after) => ⟨.failed fault, store, after⟩ := by
  rw [reply, perform, Run.outcome_bind]
  rcases store.clear.outcome world with ⟨fault | next, after⟩
  · rfl
  · rfl

end Moves

section Lockstep

/-- No file of a graph is saved under a name that leads to a place or below it. -/
def Avoids (host : Host) (root : String) (place : List String) (graph : Graph) : Prop :=
  ∀ file name, graph.Mentions file → host.relativeValue (.text file) (.text root) = .ok name →
    ∀ location : Location, location.Proper → location.text = host.canonical (Saved.pathOf root name) →
      ¬ place <+: location.names

/-- A store in a file and one in memory, and the surroundings of the first. -/
structure Twins where
  file : GraphStore
  memory : GraphStore
  world : World

/-- A move with the answers of both stores. -/
structure Exchange where
  move : Move
  file : Answer
  memory : Answer

def SavedIn (log : List Exchange) (graph : GraphOperand) : Prop :=
  ∃ exchange ∈ log, exchange.move = .save graph

/-- What was last put into the stores has no bytes, so that the store in memory alone holds it. -/
inductive Parted (host : Host) (root : String) : List Exchange → Prop
  | saved {log : List Exchange} {exchange : Exchange} {graph : GraphOperand} : exchange.move = .save graph →
    ¬ Saved.Encodable host root graph → Parted host root (log ++ [exchange])
  | loaded {log : List Exchange} {exchange : Exchange} : Parted host root log → exchange.move = .load →
    Parted host root (log ++ [exchange])
  | refused {log : List Exchange} {exchange : Exchange} {graph : GraphOperand} {fault : Fault} :
    Parted host root log → exchange.move = .save graph → Saved.writeOperand host graph (.text root) = .error fault →
    Parted host root (log ++ [exchange])

/-- How the two answers to a move go together, by what was done before. -/
inductive Answered (host : Host) (root : String) (before : List Exchange) (exchange : Exchange) : Prop
  | alike : exchange.file = exchange.memory → Answered host root before exchange
  | unwritten {graph : GraphOperand} {flaw : Text.Unpaired} : exchange.move = .save graph →
    ¬ Saved.Encodable host root graph → exchange.file = .failed (.unencodable flaw) → exchange.memory = .saved →
    Answered host root before exchange
  | parted : exchange.move = .load → Parted host root before → Answered host root before exchange

/-- The tree that the store in memory meets: the one the store in a file meets, before or after it, or one of its own
that differs in the cache directory only, where no saved graph has a file. -/
inductive Meets (host : Host) (cache : List String) (log : List Exchange) (twins : Twins) (move : Move) : FileTree → Prop
  | before : Meets host cache log twins move twins.world.tree
  | after : Meets host cache log twins move (twins.file.reply host move twins.world).world.tree
  | apart {tree : FileTree} : SameBeside twins.world.tree tree cache →
    (∀ graph, SavedIn log (.graph graph) → Avoids host twins.file.root cache graph) → Meets host cache log twins move tree

def Twins.exchange (host : Host) (twins : Twins) (move : Move) (beside : World) : Exchange :=
  ⟨move, (twins.file.reply host move twins.world).answer, (twins.memory.reply host move beside).answer⟩

def Twins.next (host : Host) (twins : Twins) (move : Move) (beside : World) : Twins :=
  ⟨(twins.file.reply host move twins.world).store, (twins.memory.reply host move beside).store,
    (twins.file.reply host move twins.world).world⟩

/-- Runs of both stores, move by move. In between the tree may change outside of the cache directory while the root
remains. -/
inductive Lockstep (host : Host) (cache : List String) (start : Twins) : List Exchange → Twins → Prop
  | start : Lockstep host cache start [] start
  | move {log : List Exchange} {twins : Twins} {move : Move} {beside : World} : Lockstep host cache start log twins →
    Meets host cache log twins move beside.tree →
    Lockstep host cache start (log ++ [twins.exchange host move beside]) (twins.next host move beside)
  | change {log : List Exchange} {twins : Twins} {tree : FileTree} : Lockstep host cache start log twins →
    tree.isDirectory twins.file.root = true → SameUnder twins.world.tree tree cache →
    Lockstep host cache start log { twins with world.tree := tree }

variable {host : Host} {location : Location} {number : Nat} {log : List Exchange} {tree other : FileTree}

inductive Mirrors (host : Host) (location : Location) (log : List Exchange) (tree : FileTree) : GraphStore → Prop
  | nothing : (tree.look (standardTrail location).text).isOk = false →
    Mirrors host location log tree (.memory location.text none)
  | saved {text : String} {graph : GraphOperand} : tree.look (standardTrail location).text = .ok (.file text.toUTF8) →
    SavedIn log graph → Saved.writeOperand host graph (.text location.text) = .ok text →
    Mirrors host location log tree (.memory location.text (some text))

/-- What every move and every change keeps. -/
structure Agree (host : Host) (location : Location) (number : Nat) (log : List Exchange) (twins : Twins) : Prop where
  file : twins.file = .file location.text (standardTrail location)
  memory : ∃ held, twins.memory = .memory location.text held
  ready : Ready location number twins.world.tree
  mirrors : Parted host location.text log ∨ Mirrors host location log twins.world.tree twins.memory

theorem SavedIn.later {graph : GraphOperand} (saved : SavedIn log graph) (more : List Exchange) :
    SavedIn (log ++ more) graph := by
  obtain ⟨exchange, member, same⟩ := saved
  exact ⟨exchange, List.mem_append_left _ member, same⟩

theorem Mirrors.later {memory : GraphStore} (mirrors : Mirrors host location log tree memory) (more : List Exchange) :
    Mirrors host location (log ++ more) tree memory := by
  cases mirrors with
  | nothing absent => exact .nothing absent
  | saved held saved wrote => exact .saved held (saved.later more) wrote

theorem Parted.saved_unencodable {root : String} (parted : Parted host root log) :
    ∃ graph, SavedIn log graph ∧ ¬ Saved.Encodable host root graph := by
  induction parted with
  | saved save bare => exact ⟨_, ⟨_, List.mem_append_right _ List.mem_cons_self, save⟩, bare⟩
  | loaded _ _ ih =>
    obtain ⟨graph, saved, bare⟩ := ih
    exact ⟨graph, saved.later _, bare⟩
  | refused _ _ _ ih =>
    obtain ⟨graph, saved, bare⟩ := ih
    exact ⟨graph, saved.later _, bare⟩

section Loading

variable {text : String} {graph : GraphOperand}

theorem fileOf?_beside {cache : List String} (same : SameBeside tree other cache) {root name : String}
    (apart : ∀ location : Location, location.Proper → location.text = host.canonical (Saved.pathOf root name) →
      ¬ cache <+: location.names) :
    Saved.fileOf? host other root (.text name) = Saved.fileOf? host tree root (.text name) := by
  obtain ⟨location, proper, spelled⟩ := host.isCanonical_canonical (Saved.pathOf root name)
  have looks := look_beside same proper (apart location proper spelled)
  have files : other.isFile (host.canonical (Saved.pathOf root name)) =
      tree.isFile (host.canonical (Saved.pathOf root name)) := by
    rw [← spelled, isFile, isFile, looks]
  simp only [Saved.pathOf] at files
  simp only [Saved.fileOf?, files]

theorem not_under_cache (location : Location) : ¬ (location.down cacheWay).names <+: location.names := by
  intro inside
  have bounded := inside.length_le
  simp [Location.down, cacheWay] at bounded

/-- A text that was written is read alike in trees that differ in the cache directory only. -/
theorem readUnder_beside (proper : location.Proper) (fixed : host.canonical location.text = location.text)
    (wrote : Saved.writeOperand host graph (.text location.text) = .ok text)
    (same : SameBeside tree other (location.down cacheWay).names)
    (avoids : ∀ saved, graph = .graph saved → Avoids host location.text (location.down cacheWay).names saved) :
    Saved.readUnder host other (.text text) (.text location.text) =
      Saved.readUnder host tree (.text text) (.text location.text) := by
  obtain ⟨saved, received⟩ := receiver_of_written wrote
  cases graph with
  | other value => cases received
  | graph saved =>
  obtain ⟨document, plain, rfl, names⟩ := Saved.write_eq_ok wrote
  have root : other.isDirectory (Path.absolute host.cwd location.text) =
      tree.isDirectory (Path.absolute host.cwd location.text) := by
    rw [Path.absolute_of_isAbsolute (Path.isAbsolute_text location), isDirectory, isDirectory,
      look_beside same proper (not_under_cache location)]
  have reads : Saved.read host other location.text document = Saved.read host tree location.text document := by
    apply Saved.read_congr
    intro name held
    obtain ⟨file, spelled, mentioned, rfl, relative⟩ := names name held
    exact fileOf?_beside same (avoids saved rfl file spelled mentioned relative)
  rw [Saved.readUnder_texts, Saved.readUnder_texts, root, Json.parse_write plain, fixed]
  simp only [reads]

theorem ofBytes_written {root : String} (wrote : Saved.writeOperand host graph (.text root) = .ok text) :
    Text.ofBytes text.toUTF8 = .ok text := by
  obtain ⟨saved, received⟩ := receiver_of_written wrote
  cases graph with
  | other value => cases received
  | graph saved =>
    obtain ⟨document, plain, rfl, _⟩ := Saved.write_eq_ok wrote
    apply Text.ofBytes_toUTF8
    rw [Json.write, String.toList_ofList]
    exact Json.no_return_chars plain 0

theorem probe_missing {path : String} (looked : (∃ entry, tree.look path = .ok entry) ∨ tree.look path = .error .missing)
    (absent : (tree.look path).isOk = false) : tree.probe path = .ok none := by
  rcases looked with ⟨entry, found⟩ | missing
  · rw [found] at absent
    cases absent
  · rw [probe, missing]

theorem load_missing {root : String} {trail : Path.Trail} {world : World} (missing : world.tree.probe trail.text = .ok none) :
    ((GraphStore.file root trail).load host).outcome world = (.ok none, world) := by
  unfold GraphStore.load
  simp only [Run.outcome_bind, Run.outcome_tree, Run.outcome_onTree, missing]
  rfl

end Loading

section Steps

variable {twins : Twins} {world beside : World}

theorem reply_refused (store : GraphStore) (world : World) {graph : GraphOperand} {fault : Fault}
    (refused : Saved.writeOperand host graph (.text store.root) = .error fault) :
    store.reply host (.save graph) world = ⟨.failed fault, store, world⟩ := by
  rw [reply_save, save, Run.outcome_bind, Run.outcome_ofExcept, refused]

theorem reply_save_memory (old : Option String) (world : World) {root text : String} {graph : GraphOperand}
    (wrote : Saved.writeOperand host graph (.text root) = .ok text) :
    (GraphStore.memory root old).reply host (.save graph) world = ⟨.saved, .memory root (some text), world⟩ := by
  rw [reply_save, save, Run.outcome_bind, Run.outcome_ofExcept, GraphStore.root, wrote]
  rfl

theorem kept_reply_load (host : Host) (store : GraphStore) (world : World) :
    (store.reply host .load world).store = store ∧ (store.reply host .load world).world.tree = world.tree := by
  have kept : ((store.load host).outcome world).2.tree = world.tree := Service.keeps_load (fun _ _ => rfl) host store world
  rw [reply_load]
  rcases ran : (store.load host).outcome world with ⟨fault | graph, after⟩
  · rw [ran] at kept
    exact ⟨rfl, kept⟩
  · rw [ran] at kept
    exact ⟨rfl, kept⟩

theorem load_alike (proper : location.Proper) (fixed : host.canonical location.text = location.text)
    (sized : Sized location number) (file : twins.file = .file location.text (standardTrail location))
    (ready : Ready location number twins.world.tree)
    (mirrors : Mirrors host location log twins.world.tree twins.memory)
    (meets : Meets host (location.down cacheWay).names log twins .load beside.tree) :
    (twins.file.reply host .load twins.world).answer = (twins.memory.reply host .load beside).answer := by
  obtain ⟨_, memory, world⟩ := twins
  subst file
  simp only at *
  cases mirrors with
  | nothing absent =>
    rw [reply_load, load_missing (probe_missing (look_of_ready proper sized ready) absent)]
    rfl
  | @saved text graph held savedIn wrote =>
    have reads : Saved.readUnder host beside.tree (.text text) (.text location.text) =
        Saved.readUnder host world.tree (.text text) (.text location.text) := by
      generalize tree : beside.tree = other at meets
      cases meets with
      | before => rfl
      | after => rw [(kept_reply_load host _ _).2]
      | apart same avoids =>
        apply readUnder_beside proper fixed wrote same
        rintro saved rfl
        exact avoids saved savedIn
    obtain ⟨journal, loaded⟩ := load_file host location.text held
    rw [ofBytes_written wrote] at loaded
    simp only at loaded
    rw [reply_load, reply_load, loaded, load, Saved.restore_outcome, reads]
    rcases Saved.readUnder host world.tree (.text text) (.text location.text) with fault | rejection | graph
    · rfl
    · rfl
    · rfl

structure Alike (host : Host) (location : Location) (number : Nat) (log : List Exchange) (twins : Twins) (move : Move)
    (beside : World) : Prop where
  answers : Answered host location.text log (twins.exchange host move beside)
  agree : Agree host location number (log ++ [twins.exchange host move beside]) (twins.next host move beside)
  spared : SameBeside twins.world.tree (twins.next host move beside).world.tree (location.down cacheWay).names

/-- What one move does, told from the replies of both stores to it. -/
theorem alike_of_replies {move : Move} {inFile inMemory : Answer} {after elsewhere : World} {held : Option String}
    (file : twins.file.reply host move twins.world = ⟨inFile, .file location.text (standardTrail location), after⟩)
    (memory : twins.memory.reply host move beside = ⟨inMemory, .memory location.text held, elsewhere⟩)
    (answers : Answered host location.text log ⟨move, inFile, inMemory⟩) (ready : Ready location number after.tree)
    (mirrors : Parted host location.text (log ++ [⟨move, inFile, inMemory⟩])
      ∨ Mirrors host location (log ++ [⟨move, inFile, inMemory⟩]) after.tree (.memory location.text held))
    (spared : SameBeside twins.world.tree after.tree (location.down cacheWay).names) :
    Alike host location number log twins move beside := by
  have exchange : twins.exchange host move beside = ⟨move, inFile, inMemory⟩ := by rw [Twins.exchange, file, memory]
  have next : twins.next host move beside = ⟨.file location.text (standardTrail location), .memory location.text held, after⟩ := by
    rw [Twins.next, file, memory]
  refine ⟨?_, ?_, ?_⟩
  · rwa [exchange]
  · rw [exchange, next]
    exact ⟨rfl, ⟨held, rfl⟩, ready, mirrors⟩
  · rwa [next]

theorem load_step (proper : location.Proper) (fixed : host.canonical location.text = location.text)
    (sized : Sized location number) (agree : Agree host location number log twins)
    (meets : Meets host (location.down cacheWay).names log twins .load beside.tree) :
    Alike host location number log twins .load beside := by
  obtain ⟨fileStays, treeStays⟩ := kept_reply_load host twins.file twins.world
  obtain ⟨memoryStays, _⟩ := kept_reply_load host twins.memory beside
  refine ⟨?_, ⟨?_, ?_, ?_, ?_⟩, ?_⟩
  · rcases agree.mirrors with parted | mirrors
    · exact .parted rfl parted
    · exact .alike (load_alike proper fixed sized agree.file agree.ready mirrors meets)
  · exact fileStays.trans agree.file
  · rw [Twins.next, memoryStays]
    exact agree.memory
  · rw [Twins.next, treeStays]
    exact agree.ready
  · rw [Twins.next, treeStays, memoryStays]
    exact agree.mirrors.imp (fun parted => .loaded parted rfl) fun mirrors => mirrors.later _
  · intro spot _
    rw [Twins.next, treeStays]

theorem save_step (proper : location.Proper) (sized : Sized location number) (agree : Agree host location number log twins)
    (graph : GraphOperand) : Alike host location number log twins (.save graph) beside := by
  obtain ⟨file, memory, world⟩ := twins
  obtain ⟨rfl, ⟨held, rfl⟩, ready, mirrors⟩ := agree
  simp only at *
  cases wrote : Saved.writeOperand host graph (.text location.text) with
  | error fault =>
    have file := reply_refused (.file location.text (standardTrail location)) world wrote
    have memory := reply_refused (.memory location.text held) beside wrote
    exact alike_of_replies file memory (.alike rfl) ready
      (mirrors.imp (fun parted => .refused parted rfl wrote) fun mirrors => mirrors.later _) (fun _ _ => rfl)
  | ok text =>
    have memory := reply_save_memory held beside wrote
    cases encoded : Text.toBytes text with
    | ok bytes =>
      obtain ⟨formed, _⟩ := Text.toBytes_eq_ok.mp encoded
      obtain ⟨after, placed, again, written, spared⟩ := place_of_ready host proper sized ready formed
      obtain ⟨journal, saving⟩ := save_of_place wrote placed
      have file : (GraphStore.file location.text (standardTrail location)).reply host (.save graph) world =
          ⟨.saved, .file location.text (standardTrail location), { world with tree := after, journal }⟩ := by
        rw [reply_save, saving]
      exact alike_of_replies file memory (.alike rfl) again
        (Or.inr (.saved written ⟨_, List.mem_append_right _ List.mem_cons_self, rfl⟩ wrote)) spared
    | error flaw =>
      obtain ⟨after, refused, still, spared⟩ := place_refused host proper sized ready encoded
      have file : (GraphStore.file location.text (standardTrail location)).reply host (.save graph) world =
          ⟨.failed (.unencodable flaw), .file location.text (standardTrail location), { world with tree := after }⟩ := by
        rw [reply_save, save_of_refused wrote refused]
      have bare : ¬ Saved.Encodable host location.text graph := by
        intro encodable
        cases (Text.toBytes_of_wellFormed (encodable text wrote)).symm.trans encoded
      exact alike_of_replies file memory (.unwritten rfl bare rfl rfl) still (Or.inl (.saved rfl bare)) spared

theorem clear_missing (host : Host) (root : String) {trail : Path.Trail} (missing : world.tree.probe trail.text = .ok none) :
    (GraphStore.file root trail).reply host .clear world = ⟨.cleared, .file root trail, world⟩ := by
  rw [reply_clear, clear]
  simp only [Run.outcome_bind, Run.outcome_tree, Run.outcome_onTree, missing]
  rfl

theorem clear_there (host : Host) (root : String) {trail : Path.Trail} {spot : List String} {bytes : ByteArray}
    (placed : world.tree.place trail.text = .ok spot) (there : world.tree.entry? spot = some (.file bytes)) :
    (GraphStore.file root trail).reply host .clear world =
      ⟨.cleared, .file root trail, { world with tree := world.tree.erase spot }⟩ := by
  rw [reply_clear, clear]
  simp only [Run.outcome_bind, Run.outcome_tree, Run.outcome_onTree, unlink_of_file placed there,
    probe_eq_some.mpr (look_eq_ok.mpr ⟨spot, placed, there⟩)]
  rfl

theorem clear_memory (host : Host) (world : World) (root : String) (held : Option String) :
    (GraphStore.memory root held).reply host .clear world = ⟨.cleared, .memory root none, world⟩ := rfl

theorem clear_step (proper : location.Proper) (sized : Sized location number) (agree : Agree host location number log twins) :
    Alike host location number log twins .clear beside := by
  obtain ⟨file, memory, world⟩ := twins
  obtain ⟨rfl, ⟨held, rfl⟩, ready, _⟩ := agree
  simp only at *
  have memory := clear_memory host beside location.text held
  rcases look_of_ready proper sized ready with ⟨entry, found⟩ | missing
  · have graphProper := proper_inside proper (isName_way (show "graph.json" ∈ _ by simp))
    have trail := standardTrail_text location
    obtain ⟨there, fits, above⟩ := (look_text_eq_ok graphProper).mp (trail ▸ found)
    have placed : world.tree.place (standardTrail location).text = .ok (location.down (insideWay "graph.json")).names := by
      rw [trail]
      exact (place_text_eq_ok graphProper).mpr ⟨rfl, fits, above⟩
    obtain ⟨bytes, rfl⟩ : ∃ bytes, entry = .file bytes := by
      cases entry with
      | file bytes => exact ⟨bytes, rfl⟩
      | directory => exact absurd there ready.artifact
    have file := clear_there host location.text placed there
    have below : (location.down (insideWay "graph.json")).names ≠ [] := by simp [Location.down, insideWay]
    have gone : ((world.tree.erase (location.down (insideWay "graph.json")).names).look (standardTrail location).text).isOk =
        false := by
      rw [trail]
      cases found : (world.tree.erase (location.down (insideWay "graph.json")).names).look
          (location.down (insideWay "graph.json")).text with
      | error fault => rfl
      | ok entry =>
        obtain ⟨still, _⟩ := (look_text_eq_ok graphProper).mp found
        rw [entry?_erase _ below, if_pos rfl] at still
        cases still
    have spared : SameBeside world.tree (world.tree.erase (location.down (insideWay "graph.json")).names)
        (location.down cacheWay).names := by
      intro spot outside
      have apart : spot ≠ (location.down (insideWay "graph.json")).names := beside_apart outside _
      rw [entry?_erase _ below, if_neg apart]
    exact alike_of_replies file memory (.alike rfl) ready.erase (Or.inr (.nothing gone)) spared
  · have absent : (world.tree.look (standardTrail location).text).isOk = false := by
      rw [missing]
      rfl
    have file := clear_missing host location.text (probe_missing (Or.inr missing) absent)
    exact alike_of_replies file memory (.alike rfl) ready (Or.inr (.nothing absent)) (fun _ _ => rfl)

theorem step_alike (proper : location.Proper) (fixed : host.canonical location.text = location.text)
    (sized : Sized location number) (agree : Agree host location number log twins) {move : Move}
    (meets : Meets host (location.down cacheWay).names log twins move beside.tree) :
    Alike host location number log twins move beside := by
  cases move with
  | save graph => exact save_step proper sized agree graph
  | load => exact load_step proper fixed sized agree meets
  | clear => exact clear_step proper sized agree

theorem agree_change (proper : location.Proper) (agree : Agree host location number log twins)
    (root : tree.isDirectory location.text = true)
    (spared : SameUnder twins.world.tree tree (location.down cacheWay).names) :
    Agree host location number log { twins with world.tree := tree } := by
  obtain ⟨file, memory, ready, mirrors⟩ := agree
  obtain ⟨here, _, above⟩ := (look_text_eq_ok proper).mp (isDirectory_iff.mp root)
  have looks := look_spared proper ready.above ready.root above here spared
  refine ⟨file, memory, ready_spared proper ready root spared, mirrors.imp_right fun mirrors => ?_⟩
  generalize twins.memory = memory at mirrors
  cases mirrors with
  | nothing absent => exact .nothing (looks ▸ absent)
  | saved held savedIn wrote => exact .saved (looks.trans held) savedIn wrote

end Steps

/-- Both stores agree after every run, and have answered as they should to every move of it. -/
theorem agree_of_lockstep {start twins : Twins} (proper : location.Proper)
    (fixed : host.canonical location.text = location.text) (sized : Sized location number)
    (agree : Agree host location number [] start)
    (run : Lockstep host (location.down cacheWay).names start log twins) :
    Agree host location number log twins
      ∧ ∀ before exchange, before ++ [exchange] <+: log → Answered host location.text before exchange := by
  induction run with
  | start => exact ⟨agree, fun before exchange first => absurd (List.prefix_nil.mp first) (by simp)⟩
  | move run meets ih =>
    obtain ⟨still, answered⟩ := ih
    have step := step_alike proper fixed sized still meets
    refine ⟨step.agree, fun before exchange first => ?_⟩
    rcases List.prefix_concat_iff.mp first with whole | earlier
    · obtain ⟨rfl, rfl⟩ := List.append_inj' whole rfl |>.imp_right List.singleton_inj.mp
      exact step.answers
    · exact answered before exchange earlier
  | change run root spared ih =>
    obtain ⟨still, answered⟩ := ih
    rw [still.file] at root
    exact ⟨agree_change proper still root spared, answered⟩

/-- Answers are alike as long as every text that is saved has bytes. -/
theorem alike_of_answered {root : String}
    (answered : ∀ before exchange, before ++ [exchange] <+: log → Answered host root before exchange)
    (encodable : ∀ graph, SavedIn log graph → Saved.Encodable host root graph) {exchange : Exchange}
    (member : exchange ∈ log) : exchange.file = exchange.memory := by
  obtain ⟨before, rest, rfl⟩ := List.append_of_mem member
  cases answered before exchange ⟨rest, by simp⟩ with
  | alike same => exact same
  | unwritten save bare _ _ => exact absurd (encodable _ ⟨exchange, member, save⟩) bare
  | parted _ parted =>
    obtain ⟨graph, saved, bare⟩ := parted.saved_unencodable
    exact absurd (encodable graph (saved.later _)) bare

/-- A store in a file and a store in memory give the same answers in every run that starts without an artifact where
one can be written, if whatever is saved has bytes. A text that has none is refused by the store in a file alone, and
only what is loaded next can differ then. The moves change nothing outside of the cache directory. -/
theorem stores_answer_alike {host : Host} {path : String} {root : Document} {file memory : GraphStore} {world : World}
    (openedFile : openFile host { path } root = .ok file) (openedMemory : openMemory host root = .ok memory)
    (directory : world.tree.isDirectory file.root = true)
    (absent : (world.tree.look (artifact { path } file.root).text).isOk = false)
    (creatable : ∃ after, (place host (artifact { path } file.root) "").outcome world = (.ok (), after))
    {log : List Exchange} {twins : Twins}
    (run : Lockstep host (cacheNames { path } file.root) ⟨file, memory, world⟩ log twins) :
    ((∀ graph, SavedIn log graph → Saved.Encodable host file.root graph) →
        ∀ exchange ∈ log, exchange.file = exchange.memory)
      ∧ (∀ before exchange, before ++ [exchange] <+: log → Answered host file.root before exchange)
      ∧ ∀ move, SameBeside twins.world.tree (twins.file.reply host move twins.world).world.tree
        (cacheNames { path } file.root) := by
  obtain ⟨place, located, same⟩ := bind_eq_ok.mp openedFile
  cases same
  obtain ⟨again, also, same⟩ := bind_eq_ok.mp openedMemory
  cases same
  cases located.symm.trans also
  have fixed := Service.canonical_of_locateRoot located
  obtain ⟨location, proper, rfl⟩ := Host.isCanonical_of_fixed fixed
  simp only [GraphStore.root, artifact_standard proper, cacheNames_standard proper] at *
  obtain ⟨after, ran⟩ := creatable
  obtain ⟨number, sized, ready⟩ := ready_of_place proper directory ran
  have agree : Agree host location number [] ⟨.file location.text (standardTrail location), .memory location.text none, world⟩ :=
    ⟨rfl, ⟨none, rfl⟩, ready, Or.inr (.nothing absent)⟩
  obtain ⟨still, answered⟩ := agree_of_lockstep proper fixed sized agree run
  refine ⟨fun encodable exchange => alike_of_answered answered encodable, answered, fun move => ?_⟩
  have last : Alike host location number log twins move twins.world := step_alike proper fixed sized still .before
  exact last.spared

/-- A graph is saved and loaded by both stores, which start from nothing. -/
theorem stores_answer_alike_sample :
    ∃ log twins, log.map Exchange.move = [.save (.graph Saved.sampleGraph), .load]
      ∧ Lockstep Saved.sampleHost (cacheNames { path := "" } "/w")
        ⟨.file "/w" (artifact { path := "" } "/w"), .memory "/w" none, Saved.sampleWorld⟩ log twins
      ∧ ∀ exchange ∈ log, exchange.file = exchange.memory := by
  have located : locateRoot Saved.sampleHost (.text ".") = .ok "/w" := eq_ok_of_toOption (by decide +kernel)
  have openedFile : openFile Saved.sampleHost { path := "" } (.text ".") = .ok (.file "/w" (artifact { path := "" } "/w")) :=
    bind_eq_ok.mpr ⟨"/w", located, rfl⟩
  have openedMemory : openMemory Saved.sampleHost (.text ".") = .ok (.memory "/w" none) :=
    bind_eq_ok.mpr ⟨"/w", located, rfl⟩
  have directory : Saved.sampleWorld.tree.isDirectory "/w" = true := by decide +kernel
  have absent : (Saved.sampleWorld.tree.look (artifact { path := "" } "/w").text).isOk = false := by decide +kernel
  have creatable : ∃ after, (place Saved.sampleHost (artifact { path := "" } "/w") "").outcome Saved.sampleWorld =
      (.ok (), after) := by
    have done : ((place Saved.sampleHost (artifact { path := "" } "/w") "").outcome Saved.sampleWorld).1.toOption =
        some () := by decide +kernel
    exact ⟨_, Prod.ext (eq_ok_of_toOption done) rfl⟩
  let first : Twins := ⟨.file "/w" (artifact { path := "" } "/w"), .memory "/w" none, Saved.sampleWorld⟩
  have saved : Lockstep Saved.sampleHost (cacheNames { path := "" } "/w") first _
      (first.next Saved.sampleHost (.save (.graph Saved.sampleGraph)) first.world) := .move .start .before
  have loaded : Lockstep Saved.sampleHost (cacheNames { path := "" } "/w") first _
      ((first.next Saved.sampleHost (.save (.graph Saved.sampleGraph)) first.world).next Saved.sampleHost .load
        (first.next Saved.sampleHost (.save (.graph Saved.sampleGraph)) first.world).world) := .move saved .before
  refine ⟨_, _, rfl, loaded, (stores_answer_alike openedFile openedMemory directory absent creatable loaded).1 ?_⟩
  rintro graph ⟨exchange, member, save⟩
  simp only [List.nil_append, List.cons_append, List.mem_cons, List.not_mem_nil, or_false] at member
  rcases member with rfl | rfl
  · cases save
    exact Service.encodable_sampleGraph
  · cases save

/-- A project whose one file has a name that is no UTF-8. -/
def oddWorld : World where
  tree := ⟨[(["w"], .directory), (["w", String.singleton (Text.ofCode 0xdc80)], .file .empty)]⟩

/-- The graph of a file whose name is no UTF-8 is saved and loaded in memory, and neither in a file. -/
theorem stores_answer_apart :
    ∃ log twins fault, log.map Exchange.move = [.save (.graph Service.unwrittenGraph), .load]
      ∧ Lockstep Saved.sampleHost (cacheNames { path := "" } "/w")
        ⟨.file "/w" (artifact { path := "" } "/w"), .memory "/w" none, oddWorld⟩ log twins
      ∧ log.map Exchange.file = [.failed fault, .loaded none] ∧ fault.kind = .unencodable
      ∧ log.map Exchange.memory = [.saved, .loaded (some Service.unwrittenGraph)] := by
  let inFile : GraphStore := .file "/w" (artifact { path := "" } "/w")
  -- The outcomes that are needed, evaluated.
  have refused : (((inFile.save Saved.sampleHost (.graph Service.unwrittenGraph)).outcome oddWorld).1.mapError Fault.kind).map
      (fun _ => ()) = .error .unencodable := by decide +kernel
  rcases saving : (inFile.save Saved.sampleHost (.graph Service.unwrittenGraph)).outcome oddWorld with ⟨fault | stored, after⟩
  · rw [saving] at refused
    have loading : ((inFile.load Saved.sampleHost).outcome
        ((inFile.save Saved.sampleHost (.graph Service.unwrittenGraph)).outcome oddWorld).2).1.toOption = some none := by
      decide +kernel
    have remembered : ((Saved.writeOperand Saved.sampleHost (.graph Service.unwrittenGraph) (.text "/w")).toOption.bind fun text =>
        (((GraphStore.memory "/w" (some text)).load Saved.sampleHost).outcome
          ((inFile.save Saved.sampleHost (.graph Service.unwrittenGraph)).outcome oddWorld).2).1.toOption) =
        some (some Service.unwrittenGraph) := by decide +kernel
    obtain ⟨text, wrote, remembered⟩ := Option.bind_eq_some_iff.mp remembered
    rw [saving] at loading remembered
    have fileSaves : inFile.reply Saved.sampleHost (.save (.graph Service.unwrittenGraph)) oddWorld = ⟨.failed fault, inFile, after⟩ := by
      rw [reply_save, saving]
    have fileLoads : (inFile.reply Saved.sampleHost .load after).answer = .loaded none := answer_load loading
    have memorySaves := reply_save_memory none oddWorld (eq_ok_of_toOption wrote)
    have memoryLoads : ((GraphStore.memory "/w" (some text)).reply Saved.sampleHost .load after).answer =
        .loaded (some Service.unwrittenGraph) := answer_load remembered
    have saved : Lockstep Saved.sampleHost (cacheNames { path := "" } "/w") ⟨inFile, .memory "/w" none, oddWorld⟩ _ _ :=
      @Lockstep.move _ _ _ _ _ (.save (.graph Service.unwrittenGraph)) oddWorld .start .before
    simp only [Twins.next, Twins.exchange, fileSaves, memorySaves] at saved
    have loaded := @Lockstep.move _ _ _ _ _ .load after saved .before
    simp only [Twins.exchange, fileLoads, memoryLoads] at loaded
    exact ⟨_, _, fault, rfl, loaded, rfl, Except.error.inj refused, rfl⟩
  · rw [saving] at refused
    cases refused

end Lockstep

end DeclGraph.GraphStore
