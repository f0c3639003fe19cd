import DeclGraph.Proofs.CachedGraphs
import DeclGraph.Proofs.InducedGraphs
import DeclGraph.Proofs.SavedTexts

/-!
Which graphs can be written under a root. Of a valid graph every file is a key of the upstream map, and all keys are
named before anything else is. So the first key that escapes the root decides, and the joining of rows with one name
hides no file.
-/

namespace DeclGraph.Saved

open DeclGraph.Graph

variable {host : Host} {graph : Graph} {root : String}

def Escapes (host : Host) (root file : String) : Prop := host.isWithin (.text file) (.text root) = .ok false

section Escaping

variable {file : String}

theorem escapes_iff (rooted : root ≠ "") (fixed : host.locate file = .ok file) :
    Escapes host root file ↔ Path.isBelow (host.canonical root) file = false := by
  obtain ⟨present, settled⟩ := Host.locate_eq_ok.mp fixed
  rw [Escapes, isWithin_text present rooted, settled, Except.ok.injEq]

theorem relativeValue_of_escapes (escapes : Escapes host root file) :
    host.relativeValue (.text file) (.text root) = .error (.outsideRoot file root) := by
  rw [Host.relativeValue, escapes]
  rfl

/-- The first key that escapes, if one does. -/
def firstEscaping (host : Host) (root : String) (map : DependencyMap) : Option String :=
  map.keys.find? fun file => !Path.isBelow (host.canonical root) file

theorem relativeRows_of_escaping (rooted : root ≠ "") {map : DependencyMap}
    (fixed : ∀ file ∈ map.keys, host.locate file = .ok file) (first : firstEscaping host root map = some file) :
    relativeRows host (.text root) map = .error (.outsideRoot file root) := by
  obtain ⟨outside, before, after, split, inside⟩ := List.find?_eq_some_iff_append.mp first
  obtain ⟨earlier, rest, rfl, rfl, tail⟩ := List.map_eq_append_iff.mp split
  obtain ⟨row, later, rfl, rfl, rfl⟩ := List.map_eq_cons_iff.mp tail
  have key {given : String × FileSet} (member : given ∈ earlier ++ row :: later) : host.locate given.1 = .ok given.1 :=
    fixed given.1 (List.mem_map_of_mem member)
  have base : host.locate root = .ok (host.canonical root) := Host.locate_eq_ok.mpr ⟨rooted, rfl⟩
  refine bind_eq_error.mpr (Or.inl (mapM_of_first (fun given member => ?_) ?_))
  · have below : Path.isBelow (host.canonical root) given.1 = true := by
      simpa using inside given.1 (List.mem_map_of_mem member)
    exact ⟨_, bind_eq_ok.mpr ⟨_, relativeValue_below base (key (List.mem_append_left _ member)) below, rfl⟩⟩
  · have escapes : Escapes host root row.1 :=
      (escapes_iff rooted (key (List.mem_append_right _ List.mem_cons_self))).mpr (by simpa using outside)
    rw [relativeValue_of_escapes escapes]
    rfl

end Escaping

section Writing

/-- A valid graph is written unless a file escapes; then the first key that does is refused. -/
theorem write_of_valid (rooted : root ≠ "") (formed : Formed host graph) (valid : graph.isValid = true) :
    (∃ file, firstEscaping host root graph.upstream = some file ∧ graph.Mentions file ∧ Escapes host root file
      ∧ write host graph (.text root) = .error (.outsideRoot file root))
    ∨ (∀ file, graph.Mentions file → host.isWithin (.text file) (.text root) = .ok true)
      ∧ ∃ text, write host graph (.text root) = .ok text := by
  have coherent : graph.Coherent :=
    (violations_eq_nil_iff formed.upstreamFormed formed.downstreamFormed).mp ((isValid_iff graph).mp valid)
  have mentions {file : String} (key : file ∈ graph.upstream.keys) : graph.Mentions file := by
    obtain ⟨row, member, rfl⟩ := List.mem_map.mp key
    exact Or.inl ⟨row, member, Or.inl rfl⟩
  have fixed {file : String} (key : file ∈ graph.upstream.keys) : host.locate file = .ok file :=
    formed.fixed file (mentions key)
  cases first : firstEscaping host root graph.upstream with
  | some file =>
    have key : file ∈ graph.upstream.keys := List.mem_of_find?_eq_some first
    have outside : Path.isBelow (host.canonical root) file = false := by simpa using List.find?_some first
    refine Or.inl ⟨file, rfl, mentions key, (escapes_iff rooted (fixed key)).mpr outside, ?_⟩
    exact bind_eq_error.mpr (Or.inl (relativeRows_of_escaping rooted (fun _ => fixed) first))
  | none =>
    have below {file : String} (mentioned : graph.Mentions file) : Path.isBelow (host.canonical root) file = true := by
      simpa using List.find?_eq_none.mp first file (coherent.key_of_mentions mentioned)
    refine Or.inr ⟨fun file mentioned => ?_, write_below (Host.locate_eq_ok.mpr ⟨rooted, rfl⟩) fun file mentioned => ?_⟩
    · obtain ⟨present, settled⟩ := Host.locate_eq_ok.mp (formed.fixed file mentioned)
      rw [isWithin_text present rooted, settled, below mentioned]
    · exact ⟨formed.fixed file mentioned, below mentioned⟩

theorem below_of_mentions {base file : String} (mentioned : (graph.below base).Mentions file) :
    Path.isBelow base file = true := by
  have kept {map : DependencyMap} {row : String × FileSet} (member : row ∈ map.restrict (Path.isBelow base))
      (named : file = row.1 ∨ file ∈ row.2) : Path.isBelow base file = true := by
    obtain ⟨given, listed, rfl⟩ := List.mem_map.mp member
    rcases named with rfl | inside
    · exact (List.mem_filter.mp listed).2
    · exact (List.mem_filter.mp inside).2
  rcases mentioned with ⟨row, member, named⟩ | ⟨row, member, named⟩
  · exact kept member named
  · exact kept member named

theorem write_part (rooted : root ≠ "") (formed : Formed host graph) :
    ∃ text, write host (graph.below (host.canonical root)) (.text root) = .ok text :=
  write_below (Host.locate_eq_ok.mpr ⟨rooted, rfl⟩) fun file mentioned =>
    ⟨(formed_below formed _).fixed file mentioned, below_of_mentions mentioned⟩

end Writing

section Services

/-- A service gives a graph for a root, in whatever surroundings. -/
inductive GivenFor (host : Host) (service : Service) (root : String) (graph : Graph) : Prop where
  | built {units : Option (List UnitOperand)} {world after : World}
      (ran : (service.build host (.text root) units).outcome world = (.ok graph, after))
  | analyzed {units : Document} {world after : World}
      (ran : (service.analyze host (.text root) units).outcome world = (.ok graph, after))
  | loadedOrBuilt {units : Document} {force : Bool} {world after : World}
      (ran : (service.loadOrBuild host (.text root) units force).outcome world = (.ok graph, after))

theorem rooted_of_locateRoot {place : String} (located : GraphStore.locateRoot host (.text root) = .ok place) :
    root ≠ "" ∧ host.locate place = .ok place ∧ place = host.canonical root := by
  obtain ⟨present, rfl⟩ := Host.locate_eq_ok.mp (Service.locateValue_of_located located)
  exact ⟨present, locate_canonical host root, rfl⟩

theorem admitted_of_load {service : Service} {place : String} {store : GraphStore} {world after : World}
    (fixed : host.canonical place = place) (stored : service.store host (.text place) = .ok store)
    (loaded : (store.load host).outcome world = (.ok (some graph), after)) {file : String}
    (mentioned : graph.Mentions file) : Admitted host world.tree place file := by
  rcases Service.store_of_located fixed stored with rfl | rfl
  · cases loaded
  · obtain ⟨_, _, _, _, _, accepted⟩ := GraphStore.load_eq_some.mp loaded
    obtain ⟨_, base, document, _, same, _, _, _, found⟩ := readUnder_eq_ok.mp accepted
    cases same
    rw [fixed] at found
    obtain ⟨entries, rfl, _⟩ := read_eq_ok.mp found
    exact (source_of_read found mentioned).1

/-- The files of a graph that a service gives lie below the root, under canonical paths. -/
theorem below_of_givenFor {service : Service} (given : GivenFor host service root graph) :
    root ≠ "" ∧ ∀ file, graph.Mentions file →
      host.locate file = .ok file ∧ Path.isBelow (host.canonical root) file = true := by
  have settled {tree : FileTree} (built : Service.BuiltFrom host tree (host.canonical root) graph) {file : String}
      (mentioned : graph.Mentions file) : host.locate file = .ok file ∧ Path.isBelow (host.canonical root) file = true :=
    ⟨(built.there file mentioned).1, built.below file mentioned⟩
  cases given with
  | built ran =>
    obtain ⟨place, middle, entered, ran⟩ := Run.outcome_bind_eq_ok.mp ran
    obtain ⟨present, placed, rfl⟩ := rooted_of_locateRoot (Service.locateRoot_eq_ok.mp entered).1
    split at ran
    · cases ran
    · exact ⟨present, fun _ => settled (Service.builtFrom_of_buildUnder placed ran)⟩
  | analyzed ran =>
    obtain ⟨place, middle, entered, ran⟩ := Run.outcome_bind_eq_ok.mp ran
    obtain ⟨present, placed, rfl⟩ := rooted_of_locateRoot (Service.locateRoot_eq_ok.mp entered).1
    simp only [Run.outcome_refuse] at ran
    split at ran
    · cases ran
    · exact ⟨present, fun _ => settled (Service.analyzeUnder_eq_ok placed ran)⟩
  | @loadedOrBuilt units force world _ ran =>
    rcases Service.loadOrBuild_outcome host service (.text root) units force world with
      ⟨_, _, failed, _⟩ | ⟨place, store, loaded, opened, ⟨found, _, load, gave⟩ | ⟨_, rebuilt⟩⟩
    · cases failed.symm.trans ran
    · cases gave.symm.trans ran
      obtain ⟨present, placed, rfl⟩ := rooted_of_locateRoot opened.located
      refine ⟨present, fun file mentioned => ?_⟩
      have admitted := admitted_of_load (Host.locate_eq_ok.mp placed).2 opened.stored load mentioned
      exact ⟨admitted.fixed, admitted.below⟩
    · rw [rebuilt] at ran
      obtain ⟨present, placed, rfl⟩ := rooted_of_locateRoot opened.located
      obtain ⟨_, _, analysis, _⟩ := Service.rebuild_eq_ok ran
      exact ⟨present, fun _ => settled (Service.analyzeUnder_eq_ok placed analysis)⟩

end Services

/-- Writing fails for files that escape the root and for nothing else. A valid graph is refused exactly if it mentions
one, and the refusal names the first of its keys that escapes. The part of any graph below the root is written, and so
is any graph that a service gives for the root. -/
theorem write_refuses_escaping (host : Host) {root : String} (rooted : root ≠ "") :
    (∀ graph, Formed host graph → graph.isValid = true →
      ((∃ fault, writeOperand host (.graph graph) (.text root) = .error fault ∧ fault.kind = .wrongValue)
        ↔ ∃ file, graph.Mentions file ∧ Escapes host root file)
      ∧ (∀ fault, writeOperand host (.graph graph) (.text root) = .error fault →
        ∃ file, firstEscaping host root graph.upstream = some file ∧ fault = .outsideRoot file root)
      ∧ ((∃ text, writeOperand host (.graph graph) (.text root) = .ok text)
        ↔ ∀ file, graph.Mentions file → host.isWithin (.text file) (.text root) = .ok true))
    ∧ (∀ graph, Formed host graph → ∃ part text, Graph.filter host graph (.text root) = .ok part
      ∧ writeOperand host (.graph part) (.text root) = .ok text)
    ∧ ∀ service graph, GivenFor host service root graph →
      ∃ text, writeOperand host (.graph graph) (.text root) = .ok text := by
  refine ⟨fun graph formed valid => ?_, fun graph formed => ?_, fun service graph given => ?_⟩
  · rw [Service.writeOperand_graph]
    rcases write_of_valid rooted formed valid with ⟨file, first, mentioned, escapes, refused⟩ | ⟨within, text, wrote⟩
    · rw [refused]
      refine ⟨⟨fun _ => ⟨file, mentioned, escapes⟩, fun _ => ⟨_, rfl, rfl⟩⟩, ?_, ?_⟩
      · rintro _ ⟨⟩
        exact ⟨file, first, rfl⟩
      · constructor
        · rintro ⟨_, ⟨⟩⟩
        · intro within
          cases (within file mentioned).symm.trans escapes
    · rw [wrote]
      refine ⟨⟨?_, ?_⟩, ?_, fun _ => within, fun _ => ⟨_, rfl⟩⟩
      · rintro ⟨_, ⟨⟩, _⟩
      · rintro ⟨file, mentioned, escapes⟩
        cases (within file mentioned).symm.trans escapes
      · rintro _ ⟨⟩
  · obtain ⟨text, wrote⟩ := write_part rooted formed
    exact ⟨_, text, filter_text graph rooted, wrote⟩
  · exact write_below (Host.locate_eq_ok.mpr ⟨rooted, rfl⟩) (below_of_givenFor given).2

def neighbours : Graph := ⟨[("/w/a", ["/v"]), ("/v", [])], [("/v", ["/w/a"]), ("/w/a", [])]⟩

theorem write_refuses_escaping_neighbours :
    writeOperand sampleHost (.graph neighbours) (.text "./") = .error (.outsideRoot "/v" "./")
      ∧ ∃ part text, Graph.filter sampleHost neighbours (.text "./") = .ok part
        ∧ writeOperand sampleHost (.graph part) (.text "./") = .ok text := by
  have formed : Formed sampleHost neighbours := formed_iff_given.mpr (eq_ok_of_toOption (by decide +kernel))
  have valid : neighbours.isValid = true := by decide +kernel
  obtain ⟨whole, parts, _⟩ := write_refuses_escaping sampleHost (by decide : "./" ≠ "")
  obtain ⟨refuses, names, _⟩ := whole neighbours formed valid
  refine ⟨?_, parts neighbours formed⟩
  have outside : Escapes sampleHost "./" "/v" := eq_ok_of_toOption (by decide +kernel)
  obtain ⟨fault, failed, _⟩ := refuses.mpr ⟨"/v", Or.inl ⟨_, List.mem_cons_self, Or.inr List.mem_cons_self⟩, outside⟩
  obtain ⟨file, first, rfl⟩ := names fault failed
  have found : firstEscaping sampleHost "./" neighbours.upstream = some "/v" := by decide +kernel
  cases found.symm.trans first
  exact failed

end DeclGraph.Saved
