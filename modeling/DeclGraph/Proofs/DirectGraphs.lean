import DeclGraph.Proofs.GraphUnions
import DeclGraph.Proofs.UnitedGraphs

/-!
Graphs of direct dependencies, from results under any spellings. The graph shows exactly what the results tell once
every spelling stands for its canonical path, and the graph of two lists of results is the union of their graphs. So
the order of the results, their grouping and repetitions do not count.
-/

namespace DeclGraph.Graph

open DependencyMap

section Failing

variable {α β : Type} {f : α → Except Fault β}

theorem mapM_eq_error {values : List α} {fault : Fault}
    (each : ∀ value ∈ values, ∀ other, f value = .error other → other = fault)
    (fails : ∃ value ∈ values, f value = .error fault) : values.mapM f = .error fault := by
  induction values with
  | nil =>
    obtain ⟨value, member, _⟩ := fails
    cases member
  | cons value rest ih =>
    rw [List.mapM_cons, bind_eq_error]
    cases first : f value with
    | error other => exact Or.inl (congrArg Except.error (each value List.mem_cons_self other first))
    | ok result =>
      refine Or.inr ⟨result, rfl, bind_eq_error.mpr (Or.inl ?_)⟩
      obtain ⟨culprit, member, failed⟩ := fails
      rcases List.mem_cons.mp member with rfl | later
      · rw [first] at failed
        cases failed
      · exact ih (fun other listed => each other (List.mem_cons_of_mem _ listed)) ⟨culprit, later, failed⟩

end Failing

section Spellings

variable {host : Host} {results others : List FileDependencies}

def SpelledResult (result : FileDependencies) : Prop :=
  result.file ≠ "" ∧ ∀ dependency ∈ result.dependencies, dependency ≠ ""

def Spelled (results : List FileDependencies) : Prop := ∀ result ∈ results, SpelledResult result

/-- A file that one of the results names, under whatever spelling. -/
def Cited (host : Host) (results : List FileDependencies) (file : String) : Prop :=
  ∃ result ∈ results,
    host.canonical result.file = file ∨ ∃ dependency ∈ result.dependencies, host.canonical dependency = file

/-- One of the results tells that a file depends on another. -/
def Told (host : Host) (results : List FileDependencies) (file next : String) : Prop :=
  file ≠ next ∧ ∃ result ∈ results, host.canonical result.file = file
    ∧ ∃ dependency ∈ result.dependencies, host.canonical dependency = next

def rowOf (host : Host) (result : FileDependencies) : String × List String :=
  (host.canonical result.file, result.dependencies.map host.canonical)

theorem locate_eq_error {path : String} {fault : Fault} :
    host.locate path = .error fault ↔ path = "" ∧ fault = .emptyPath := by
  by_cases empty : path = ""
  · simp [Host.locate, empty, eq_comm]
  · simp [Host.locate, empty]

theorem canonicalRow_of_spelled {result : FileDependencies} (spelled : SpelledResult result) :
    canonicalRow host result = .ok (rowOf host result) := by
  have dependencies : result.dependencies.mapM host.locate = .ok (result.dependencies.map host.canonical) :=
    mapM_of_each fun dependency member => Host.locate_eq_ok.mpr ⟨spelled.2 dependency member, rfl⟩
  exact bind_eq_ok.mpr ⟨_, Host.locate_eq_ok.mpr ⟨spelled.1, rfl⟩, bind_eq_ok.mpr ⟨_, dependencies, rfl⟩⟩

theorem canonicalRow_of_not_spelled {result : FileDependencies} (bad : ¬ SpelledResult result) :
    canonicalRow host result = .error .emptyPath := by
  rw [canonicalRow, bind_eq_error, locate_eq_error]
  by_cases named : result.file = ""
  · exact Or.inl ⟨named, rfl⟩
  · have empty : "" ∈ result.dependencies := by
      by_contra absent
      exact bad ⟨named, fun dependency member given => absent (given ▸ member)⟩
    refine Or.inr ⟨_, Host.locate_eq_ok.mpr ⟨named, rfl⟩, bind_eq_error.mpr (Or.inl ?_)⟩
    exact mapM_eq_error (fun _ _ _ failed => (locate_eq_error.mp failed).2) ⟨"", empty, locate_eq_error.mpr ⟨rfl, rfl⟩⟩

theorem ofDirect_of_not_spelled (bad : ¬ Spelled results) : ofDirect host results = .error .emptyPath := by
  obtain ⟨result, member, culprit⟩ : ∃ result ∈ results, ¬ SpelledResult result := by
    simpa [Spelled] using bad
  refine bind_eq_error.mpr (Or.inl (mapM_eq_error ?_ ⟨result, member, canonicalRow_of_not_spelled culprit⟩))
  intro other _ fault failed
  by_cases spelled : SpelledResult other
  · rw [canonicalRow_of_spelled spelled] at failed
    cases failed
  · rw [canonicalRow_of_not_spelled spelled] at failed
    exact (Except.error.inj failed).symm

theorem fixed_of_cited {file : String} (cited : Cited host results file) : host.locate file = .ok file := by
  obtain ⟨result, _, rfl | ⟨dependency, _, rfl⟩⟩ := cited
  · exact Saved.locate_canonical host result.file
  · exact Saved.locate_canonical host dependency

theorem ofDirect_of_spelled (host : Host) (spelled : Spelled results) : ∃ graph, ofDirect host results = .ok graph
    ∧ Formed host graph ∧ graph.Shows (Cited host results) (Told host results) := by
  have rows : results.mapM (canonicalRow host) = .ok (results.map (rowOf host)) :=
    mapM_of_each fun result member => canonicalRow_of_spelled (spelled result member)
  have shows : (ofRows (results.map (rowOf host))).Shows (Cited host results) (Told host results) := by
    refine ⟨coherent_ofRows _, fun file => ?_, fun file next => ?_⟩
    · rw [mem_keys_ofRows]
      simp [Cited, rowOf, eq_comm]
    · rw [mem_get_ofRows]
      constructor
      · rintro ⟨_, mapped, named, listed, different⟩
        obtain ⟨result, member, rfl⟩ := List.mem_map.mp mapped
        exact ⟨Ne.symm different, result, member, named, List.mem_map.mp listed⟩
      · rintro ⟨different, result, member, named, dependency, listed, same⟩
        exact ⟨_, List.mem_map_of_mem member, named, List.mem_map.mpr ⟨dependency, listed, same⟩, Ne.symm different⟩
  have formed : Formed host (ofRows (results.map (rowOf host))) :=
    ⟨shows.coherent.upstreamFormed, shows.coherent.downstreamFormed, fun file mentioned =>
      fixed_of_cited ((shows.keys file).mp (shows.coherent.key_of_mentions mentioned))⟩
  exact ⟨_, bind_eq_ok.mpr ⟨_, rows, rfl⟩, formed, shows⟩

end Spellings

section Joining

variable {host : Host} {results others : List FileDependencies} {graph other : Graph}

theorem shows_append (shows : graph.Shows (Cited host results) (Told host results))
    (also : other.Shows (Cited host others) (Told host others)) :
    (graph.merge other).Shows (Cited host (results ++ others)) (Told host (results ++ others)) := by
  apply shows_congr (shows_merge shows also)
  · intro file
    simp only [Cited, List.mem_append, or_and_right, exists_or]
  · intro file next
    simp only [Told, List.mem_append, or_and_right, exists_or, and_or_left]

theorem shows_of_same_members (shows : graph.Shows (Cited host results) (Told host results))
    (members : ∀ result, result ∈ results ↔ result ∈ others) :
    graph.Shows (Cited host others) (Told host others) := by
  apply shows_congr shows
  · intro file
    simp only [Cited, members]
  · intro file next
    simp only [Told, members]

theorem shows_flatten {parts : List (List FileDependencies)} {graphs : List Graph}
    (each : List.Forall₂ (fun results graph => Shows graph (Cited host results) (Told host results)) parts graphs) :
    (mergeAll graphs).Shows (Cited host parts.flatten) (Told host parts.flatten) := by
  apply shows_congr (shows_mergeAll each)
  · intro file
    simp only [Cited, List.mem_flatten]
    constructor
    · rintro ⟨part, listed, result, member, names⟩
      exact ⟨result, ⟨part, listed, member⟩, names⟩
    · rintro ⟨result, ⟨part, listed, member⟩, names⟩
      exact ⟨part, listed, result, member, names⟩
  · intro file next
    simp only [Told, List.mem_flatten]
    constructor
    · rintro ⟨part, listed, different, result, member, named⟩
      exact ⟨different, result, ⟨part, listed, member⟩, named⟩
    · rintro ⟨different, result, ⟨part, listed, member⟩, named⟩
      exact ⟨part, listed, different, result, member, named⟩

end Joining

/-- The graph of direct dependencies. It is refused only for an empty spelling; otherwise its edges are exactly those
that the results tell, its maps have exactly the cited files as keys and are each other's reverse, and it is what these
maps give. The graph of two lists is the union of their graphs; the same results in another order, in groups or
repeated have the same graph. -/
theorem ofDirect_exact (host : Host) (results : List FileDependencies) :
    (¬ Spelled results ∧ ofDirect host results = .error .emptyPath)
      ∨ (Spelled results ∧ ∃ graph, ofDirect host results = .ok graph
        ∧ (∀ file next, next ∈ graph.upstreamOf file ↔ file ≠ next ∧ ∃ result ∈ results,
            host.canonical result.file = file ∧ ∃ dependency ∈ result.dependencies, host.canonical dependency = next)
        ∧ (∀ file, file ∈ graph.upstream.keys ↔ Cited host results file)
        ∧ (∀ file, file ∈ graph.downstream.keys ↔ Cited host results file)
        ∧ (∀ file next, file ∈ graph.downstreamOf next ↔ next ∈ graph.upstreamOf file)
        ∧ graph.upstream.keys.Nodup ∧ graph.downstream.keys.Nodup
        ∧ ofEntries host (some (entriesOf graph.upstream)) (some (entriesOf graph.downstream)) = .ok graph
        ∧ (∀ others, Spelled others → ∃ other whole, ofDirect host others = .ok other
            ∧ ofDirect host (results ++ others) = .ok whole ∧ whole.same (graph.merge other) = true)
        ∧ (∀ others, (∀ result, result ∈ results ↔ result ∈ others) →
            ∃ other, ofDirect host others = .ok other ∧ other.same graph = true)
        ∧ ∀ parts : List (List FileDependencies), parts.flatten = results →
            ∃ graphs, parts.mapM (ofDirect host) = .ok graphs ∧ (mergeAll graphs).same graph = true) := by
  by_cases spelled : Spelled results
  · obtain ⟨graph, made, formed, shows⟩ := ofDirect_of_spelled host spelled
    have coherent := shows.coherent
    have downstreamKeys (file : String) : file ∈ graph.downstream.keys ↔ Cited host results file := by
      rw [← coherent.sameKeys]
      exact shows.keys file
    have reversed (file next : String) : file ∈ graph.downstreamOf next ↔ next ∈ graph.upstreamOf file :=
      (coherent.reversed file next).symm
    -- The graph of other results shows what these results tell, so two graphs are compared by what they show.
    refine Or.inr ⟨spelled, graph, made, shows.members, shows.keys, downstreamKeys, reversed,
      coherent.upstreamFormed.distinct, coherent.downstreamFormed.distinct, formed_iff_given.mp formed, ?_, ?_, ?_⟩
    · intro others also
      obtain ⟨other, otherMade, _, otherShows⟩ := ofDirect_of_spelled host also
      have all : Spelled (results ++ others) := List.forall_mem_append.mpr ⟨spelled, also⟩
      obtain ⟨whole, wholeMade, _, wholeShows⟩ := ofDirect_of_spelled host all
      exact ⟨other, whole, otherMade, wholeMade,
        same_of_shows wholeShows (shows_append shows otherShows) (fun _ => Iff.rfl) fun _ _ => Iff.rfl⟩
    · intro others members
      have also : Spelled others := fun result member => spelled result ((members result).mpr member)
      obtain ⟨other, otherMade, _, otherShows⟩ := ofDirect_of_spelled host also
      exact ⟨other, otherMade,
        same_of_shows otherShows (shows_of_same_members shows members) (fun _ => Iff.rfl) fun _ _ => Iff.rfl⟩
    · rintro parts rfl
      have each : ∀ part ∈ parts, ∃ graph, ofDirect host part = .ok graph
          ∧ graph.Shows (Cited host part) (Told host part) := by
        intro part listed
        obtain ⟨graph, made, _, shows⟩ := ofDirect_of_spelled host fun result member =>
          spelled result (List.mem_flatten_of_mem listed member)
        exact ⟨graph, made, shows⟩
      obtain ⟨graphs, pairs⟩ := exists_forall₂ each
      refine ⟨graphs, mapM_eq_ok.mpr (pairs.imp fun _ _ both => both.1), ?_⟩
      exact same_of_shows (shows_flatten (pairs.imp fun _ _ both => both.2)) shows (fun _ => Iff.rfl) fun _ _ => Iff.rfl
  · exact Or.inl ⟨spelled, ofDirect_of_not_spelled spelled⟩

example : (ofDirect Saved.sampleHost [⟨"./a", ["b", "a", "/w/x/../b"], .null⟩]).toOption =
    some ⟨[("/w/a", ["/w/b"]), ("/w/b", [])], [("/w/a", []), ("/w/b", ["/w/a"])]⟩ := by
  decide +kernel

end DeclGraph.Graph
