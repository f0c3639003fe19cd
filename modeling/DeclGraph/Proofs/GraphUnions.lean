import DeclGraph.Proofs.SavedGraph

/-!
Unions of graphs, whether or not their two maps keep in step. A graph is told by the keys and pairs of each of its
maps, and the union of two graphs holds what either of them holds. So the order, the grouping and the repetition of
what is united do not count.
-/

namespace DeclGraph.Graph

open DependencyMap

/-- What a graph can hold: a key of one of its maps, or a file in the set of another. -/
inductive Fact where
  | upstreamKey (file : String)
  | downstreamKey (file : String)
  | upstreamPair (file other : String)
  | downstreamPair (file other : String)

def Holds (graph : Graph) : Fact → Prop
  | .upstreamKey file => file ∈ graph.upstream.keys
  | .downstreamKey file => file ∈ graph.downstream.keys
  | .upstreamPair file other => other ∈ graph.upstreamOf file
  | .downstreamPair file other => other ∈ graph.downstreamOf file

section Facts

variable {host : Host} {graph other : Graph}

theorem not_holds_empty (fact : Fact) : ¬ empty.Holds fact := by
  cases fact with
  | upstreamKey file => exact List.not_mem_nil
  | downstreamKey file => exact List.not_mem_nil
  | upstreamPair file next => exact List.not_mem_nil
  | downstreamPair file next => exact List.not_mem_nil

theorem holds_merge (also : Formed host other) (fact : Fact) :
    (graph.merge other).Holds fact ↔ graph.Holds fact ∨ other.Holds fact := by
  cases fact with
  | upstreamKey file => exact mem_keys_addAll _ _ file
  | downstreamKey file => exact mem_keys_addAll _ _ file
  | upstreamPair file next => exact mem_get_addAll _ _ also.upstreamFormed.distinct file next
  | downstreamPair file next => exact mem_get_addAll _ _ also.downstreamFormed.distinct file next

theorem get_of_isPartOf {map more : DependencyMap} (part : map.isPartOf more = true) {file : String} (key : file ∈ map.keys) :
    file ∈ more.keys ∧ more.get file = map.get file := by
  obtain ⟨set, found⟩ := Option.isSome_iff_exists.mp ((find?_isSome map file).mpr key)
  have there := List.all_eq_true.mp part (file, set) (mem_of_find? found)
  rw [decide_eq_true_eq] at there
  refine ⟨(find?_isSome more file).mp (by rw [there]; rfl), ?_⟩
  rw [DependencyMap.get, DependencyMap.get, there, found]

theorem keys_of_same {map more : DependencyMap} (same : map.same more = true) (file : String) :
    file ∈ map.keys ↔ file ∈ more.keys := by
  rw [DependencyMap.same, Bool.and_eq_true] at same
  exact ⟨fun key => (get_of_isPartOf same.1 key).1, fun key => (get_of_isPartOf same.2 key).1⟩

theorem get_of_same {map more : DependencyMap} (same : map.same more = true) (file other : String) :
    other ∈ map.get file ↔ other ∈ more.get file := by
  rw [DependencyMap.same, Bool.and_eq_true] at same
  constructor
  · intro member
    rwa [(get_of_isPartOf same.1 (mem_keys_of_mem_get member)).2]
  · intro member
    rwa [(get_of_isPartOf same.2 (mem_keys_of_mem_get member)).2]

/-- Graphs are the same exactly when they hold the same. -/
theorem same_iff_holds (formed : Formed host graph) (also : Formed host other) :
    graph.same other = true ↔ ∀ fact, graph.Holds fact ↔ other.Holds fact := by
  rw [same, Bool.and_eq_true]
  constructor
  · rintro ⟨upstream, downstream⟩ fact
    cases fact with
    | upstreamKey file => exact keys_of_same upstream file
    | downstreamKey file => exact keys_of_same downstream file
    | upstreamPair file next => exact get_of_same upstream file next
    | downstreamPair file next => exact get_of_same downstream file next
  · intro agree
    constructor
    · exact same_of_same_members formed.upstreamFormed also.upstreamFormed (fun file => agree (.upstreamKey file))
        fun file next => agree (.upstreamPair file next)
    · exact same_of_same_members formed.downstreamFormed also.downstreamFormed
        (fun file => agree (.downstreamKey file)) fun file next => agree (.downstreamPair file next)

end Facts

section Joining

variable {host : Host} {graph other : Graph}

theorem formed_iff_maps : Formed host graph ↔ FormedMap host graph.upstream ∧ FormedMap host graph.downstream := by
  constructor
  · intro whole
    have part {map : DependencyMap} (formed : map.WellFormed)
        (fixed : ∀ row ∈ map, ∀ file, file = row.1 ∨ file ∈ row.2 → host.locate file = .ok file) :
        FormedMap host map := by
      refine ⟨formed, fun file key => ?_, fun key file listed => ?_⟩
      · obtain ⟨row, member, rfl⟩ := List.mem_map.mp key
        exact fixed row member row.1 (Or.inl rfl)
      · obtain ⟨row, member, _, inside⟩ := row_of_mem_get listed
        exact fixed row member file (Or.inr inside)
    exact ⟨part whole.upstreamFormed fun row member file here => whole.fixed file (Or.inl ⟨row, member, here⟩),
      part whole.downstreamFormed fun row member file here => whole.fixed file (Or.inr ⟨row, member, here⟩)⟩
  · rintro ⟨upstream, downstream⟩
    refine ⟨upstream.formed, downstream.formed, ?_⟩
    rintro file (⟨row, member, here⟩ | ⟨row, member, here⟩)
    · exact upstream.fixed member here
    · exact downstream.fixed member here

theorem FormedMap.addAll {map more : DependencyMap} (whole : FormedMap host map) (also : FormedMap host more) :
    FormedMap host (map.addAll more) := by
  refine ⟨wellFormed_addAll whole.formed more, fun file key => ?_, fun key file listed => ?_⟩
  · rcases (mem_keys_addAll map more file).mp key with old | new
    · exact whole.keys file old
    · exact also.keys file new
  · rcases (mem_get_addAll map more also.formed.distinct key file).mp listed with old | new
    · exact whole.members key file old
    · exact also.members key file new

theorem formed_empty : Formed host empty :=
  ⟨wellFormed_nil, wellFormed_nil, by rintro file (⟨row, member, _⟩ | ⟨row, member, _⟩) <;> cases member⟩

theorem formed_merge (formed : Formed host graph) (also : Formed host other) : Formed host (graph.merge other) := by
  rw [formed_iff_maps] at formed also ⊢
  exact ⟨formed.1.addAll also.1, formed.2.addAll also.2⟩

/-- Any number of graphs, one after another, hold together what each of them holds. -/
theorem foldl_merge_spec {graphs : List Graph} (formed : ∀ graph ∈ graphs, Formed host graph) {start : Graph}
    (first : Formed host start) : Formed host (graphs.foldl merge start)
      ∧ ∀ fact, (graphs.foldl merge start).Holds fact ↔ start.Holds fact ∨ ∃ graph ∈ graphs, graph.Holds fact := by
  induction graphs generalizing start with
  | nil => exact ⟨first, by simp⟩
  | cons graph rest ih =>
    have here := formed graph List.mem_cons_self
    obtain ⟨kept, holds⟩ :=
      ih (fun other member => formed other (List.mem_cons_of_mem _ member)) (formed_merge first here)
    refine ⟨kept, fun fact => ?_⟩
    rw [List.foldl_cons, holds, holds_merge here, List.exists_mem_cons_iff, or_assoc]

theorem formed_mergeAll {graphs : List Graph} (formed : ∀ graph ∈ graphs, Formed host graph) :
    Formed host (mergeAll graphs) := (foldl_merge_spec formed formed_empty).1

theorem holds_mergeAll {graphs : List Graph} (formed : ∀ graph ∈ graphs, Formed host graph) (fact : Fact) :
    (mergeAll graphs).Holds fact ↔ ∃ graph ∈ graphs, graph.Holds fact := by
  rw [mergeAll, (foldl_merge_spec formed formed_empty).2]
  exact or_iff_right (not_holds_empty fact)

end Joining

section Constructing

variable {host : Host}

def entriesOf (map : DependencyMap) : Entries := map.map fun row => (.text row.1, .texts row.2)

theorem add_of_fresh {map : DependencyMap} {file : String} (fresh : file ∉ map.keys) (files : List String) :
    map.add file files = map ++ [(file, FileSet.ofList files)] := by
  induction map with
  | nil => rfl
  | cons row rest ih =>
    obtain ⟨key, set⟩ := row
    obtain ⟨different, later⟩ := not_or.mp (fun same => fresh (List.mem_cons.mpr same) : ¬ (file = key ∨ file ∈ keys rest))
    rw [DependencyMap.add, if_neg (Ne.symm different), ih later]
    rfl

theorem ofList_of_increasing {set : FileSet} (sorted : set.Increasing) : FileSet.ofList set = set :=
  FileSet.eq_of_same_members (FileSet.increasing_ofList set) sorted (FileSet.mem_ofList set)

theorem addValues_row {name : String} {map : DependencyMap} {row : String × FileSet} (fresh : row.1 ∉ map.keys)
    (sorted : FileSet.Increasing row.2) (fixed : ∀ file, file = row.1 ∨ file ∈ row.2 → host.locate file = .ok file) :
    map.addValues host name (.text row.1) (.texts row.2) = .ok (map ++ [row]) := by
  have key : host.locateValue (.text row.1) = .ok row.1 := fixed row.1 (Or.inl rfl)
  have each : (row.2.map Document.text).mapM host.locateValue = .ok row.2 := by
    rw [mapM_eq_ok, List.forall₂_map_left_iff, List.forall₂_same]
    exact fun file member => fixed file (Or.inr member)
  rw [addValues, if_neg (by simp [Document.texts, Document.isNull])]
  refine bind_eq_ok.mpr ⟨row.1, key, bind_eq_ok.mpr ⟨row.2, each, ?_⟩⟩
  rw [add_of_fresh fresh, ofList_of_increasing sorted]
  rfl

theorem ofEntries_entriesOf {name : String} {map : DependencyMap} (whole : FormedMap host map) :
    DependencyMap.ofEntries host name (some (entriesOf map)) = .ok map := by
  -- The rows are added one after another to those that came before them.
  suffices ∀ before rest : DependencyMap, before ++ rest = map →
      (entriesOf rest).foldlM (fun map entry => map.addValues host name (.scalar entry.1) entry.2) before
        = .ok map from this [] map rfl
  intro before rest
  induction rest generalizing before with
  | nil =>
    rintro rfl
    rw [List.append_nil]
    rfl
  | cons row rest ih =>
    intro split
    have member : row ∈ map := split ▸ List.mem_append_right _ List.mem_cons_self
    have fresh : row.1 ∉ before.keys := by
      have distinct := whole.formed.distinct
      rw [← split, keys, List.map_append, List.nodup_append] at distinct
      exact fun old => distinct.2.2 row.1 old row.1 List.mem_cons_self rfl
    have added : before.addValues host name (.text row.1) (.texts row.2) = .ok (before ++ [row]) :=
      addValues_row fresh (whole.formed.increasing row member) fun file => whole.fixed member
    refine bind_eq_ok.mpr ⟨before ++ [row], added, ih (before ++ [row]) ?_⟩
    rw [List.append_assoc]
    exact split

/-- The formed graphs are those that are given by two maps; each is given by its own. -/
theorem formed_iff_given {graph : Graph} : Formed host graph
    ↔ ofEntries host (some (entriesOf graph.upstream)) (some (entriesOf graph.downstream)) = .ok graph := by
  constructor
  · intro formed
    obtain ⟨upstream, downstream⟩ := formed_iff_maps.mp formed
    exact bind_eq_ok.mpr ⟨_, ofEntries_entriesOf upstream, bind_eq_ok.mpr ⟨_, ofEntries_entriesOf downstream, rfl⟩⟩
  · exact formed_ofEntries

end Constructing

section Laws

variable {host : Host}

/-- Lists of graphs with the same members, in whatever order and however often, have the same union. -/
theorem same_mergeAll {graphs others : List Graph} (formed : ∀ graph ∈ graphs, Formed host graph)
    (also : ∀ other ∈ others, Formed host other) (there : ∀ graph ∈ graphs, ∃ other ∈ others, graph.same other = true)
    (back : ∀ other ∈ others, ∃ graph ∈ graphs, other.same graph = true) :
    (mergeAll graphs).same (mergeAll others) = true := by
  rw [same_iff_holds (formed_mergeAll formed) (formed_mergeAll also)]
  intro fact
  rw [holds_mergeAll formed, holds_mergeAll also]
  constructor
  · rintro ⟨graph, member, holds⟩
    obtain ⟨other, listed, same⟩ := there graph member
    exact ⟨other, listed, ((same_iff_holds (formed graph member) (also other listed)).mp same fact).mp holds⟩
  · rintro ⟨other, listed, holds⟩
    obtain ⟨graph, member, same⟩ := back other listed
    exact ⟨graph, member, ((same_iff_holds (also other listed) (formed graph member)).mp same fact).mp holds⟩

/-- Union is commutative, associative and idempotent and has the empty graph as its unit, on all graphs that two maps
can give. It holds what its parts hold, and it is itself what its two maps give. -/
theorem merge_semilattice {first second third : Graph} (formed : Formed host first) (also : Formed host second)
    (last : Formed host third) :
    (first.merge second).same (second.merge first) = true
      ∧ (first.merge (second.merge third)).same ((first.merge second).merge third) = true
      ∧ (first.merge first).same first = true
      ∧ (first.merge empty).same first = true
      ∧ (∀ fact, (first.merge second).Holds fact ↔ first.Holds fact ∨ second.Holds fact)
      ∧ ofEntries host (some (entriesOf (first.merge second).upstream)) (some (entriesOf (first.merge second).downstream))
          = .ok (first.merge second)
      ∧ ∀ graphs others : List Graph, (∀ graph ∈ graphs, Formed host graph) → (∀ other ∈ others, Formed host other) →
          (∀ graph ∈ graphs, ∃ other ∈ others, graph.same other = true) →
          (∀ other ∈ others, ∃ graph ∈ graphs, other.same graph = true) →
          (mergeAll graphs).same (mergeAll others) = true := by
  have both := formed_merge formed also
  have bare : Formed host empty := formed_empty
  refine ⟨?_, ?_, ?_, ?_, holds_merge also, formed_iff_given.mp both, fun _ _ => same_mergeAll⟩
  · rw [same_iff_holds both (formed_merge also formed)]
    intro fact
    rw [holds_merge also, holds_merge formed, or_comm]
  · have rest := formed_merge also last
    rw [same_iff_holds (formed_merge formed rest) (formed_merge both last)]
    intro fact
    rw [holds_merge rest, holds_merge last, holds_merge last, holds_merge also, or_assoc]
  · rw [same_iff_holds (formed_merge formed formed) formed]
    intro fact
    rw [holds_merge formed, or_self]
  · rw [same_iff_holds (formed_merge formed bare) formed]
    intro fact
    rw [holds_merge bare]
    exact or_iff_left (not_holds_empty fact)

/-- A file depends on another, which does not know of it. -/
def oneWay : Graph := ⟨[("/w/a", ["/w/b"])], [("/w/c", [])]⟩

def selfish : Graph := ⟨[], [("/w/a", ["/w/a", "/w/b"])]⟩

theorem formed_oneWay : Formed Saved.sampleHost oneWay :=
  formed_iff_given.mpr (eq_ok_of_toOption (by decide +kernel))

theorem formed_selfish : Formed Saved.sampleHost selfish :=
  formed_iff_given.mpr (eq_ok_of_toOption (by decide +kernel))

theorem merge_selfish_oneWay :
    oneWay.isValid = false ∧ selfish.isValid = false
      ∧ (oneWay.merge selfish).same (selfish.merge oneWay) = true
      ∧ (oneWay.merge selfish).Holds (.downstreamPair "/w/a" "/w/a")
      ∧ (mergeAll [oneWay, selfish, oneWay]).same (mergeAll [selfish, oneWay]) = true := by
  obtain ⟨commutes, _, _, _, holds, _, lists⟩ := merge_semilattice formed_oneWay formed_selfish formed_empty
  have refl {graph : Graph} (formed : Formed Saved.sampleHost graph) : graph.same graph = true :=
    (same_iff_holds formed formed).mpr fun _ => Iff.rfl
  refine ⟨by decide +kernel, by decide +kernel, commutes, (holds _).mpr (Or.inr ?_), lists _ _ ?_ ?_ ?_ ?_⟩
  · simp [Holds, downstreamOf, selfish, DependencyMap.get, find?]
  · simp [formed_oneWay, formed_selfish]
  · simp [formed_oneWay, formed_selfish]
  · simp [refl formed_oneWay, refl formed_selfish]
  · simp [refl formed_oneWay, refl formed_selfish]

end Laws

end DeclGraph.Graph
