import DeclGraph.Proofs.Coherence
import DeclGraph.Proofs.Outcomes
import DeclGraph.Service

/-!
Graphs by what they show. A coherent graph is told, up to the order of its rows, by its files and by the
pairs of files that depend on each other. What is assembled from the results of several units shows what all
of the results show together below the root, so neither the order of the units nor repetitions count.
-/

namespace DeclGraph.Graph

open DependencyMap

section Saying

variable {graph other : Graph} {files otherFiles : String → Prop} {pairs otherPairs : String → String → Prop}

/-- A coherent graph of these files, in which the first file of each of these pairs depends on the second. -/
structure Shows (graph : Graph) (files : String → Prop) (pairs : String → String → Prop) : Prop where
  coherent : graph.Coherent
  keys : ∀ file, file ∈ graph.upstream.keys ↔ files file
  members : ∀ file next, next ∈ graph.upstream.get file ↔ pairs file next

theorem same_of_shows (shows : graph.Shows files pairs) (also : other.Shows otherFiles otherPairs)
    (sameFiles : ∀ file, files file ↔ otherFiles file)
    (samePairs : ∀ file next, pairs file next ↔ otherPairs file next) : graph.same other = true := by
  have keys (file : String) : file ∈ graph.upstream.keys ↔ file ∈ other.upstream.keys := by
    rw [shows.keys, also.keys]
    exact sameFiles file
  have members (file next : String) : next ∈ graph.upstream.get file ↔ next ∈ other.upstream.get file := by
    rw [shows.members, also.members]
    exact samePairs file next
  rw [same, Bool.and_eq_true]
  constructor
  · exact same_of_same_members shows.coherent.upstreamFormed also.coherent.upstreamFormed keys members
  · apply same_of_same_members shows.coherent.downstreamFormed also.coherent.downstreamFormed
    · intro file
      rw [← shows.coherent.sameKeys, ← also.coherent.sameKeys]
      exact keys file
    · intro file next
      rw [← shows.coherent.reversed, ← also.coherent.reversed]
      exact members next file

theorem same_refl (coherent : graph.Coherent) : graph.same graph = true := by
  rw [same, Bool.and_eq_true]
  constructor
  · exact same_of_perm coherent.upstreamFormed (List.Perm.refl _)
  · exact same_of_perm coherent.downstreamFormed (List.Perm.refl _)

theorem shows_congr (shows : graph.Shows files pairs) (sameFiles : ∀ file, files file ↔ otherFiles file)
    (samePairs : ∀ file next, pairs file next ↔ otherPairs file next) : graph.Shows otherFiles otherPairs where
  coherent := shows.coherent
  keys file := (shows.keys file).trans (sameFiles file)
  members file next := (shows.members file next).trans (samePairs file next)

theorem shows_empty : empty.Shows (fun _ => False) (fun _ _ => False) where
  coherent := coherent_empty
  keys := by simp [empty, DependencyMap.keys]
  members := by simp [empty, DependencyMap.get, find?]

theorem shows_merge (shows : graph.Shows files pairs) (also : other.Shows otherFiles otherPairs) :
    (graph.merge other).Shows (fun file => files file ∨ otherFiles file)
      (fun file next => pairs file next ∨ otherPairs file next) where
  coherent := coherent_merge shows.coherent also.coherent
  keys file := by rw [mem_keys_merge, shows.keys, also.keys]
  members file next := by
    rw [merge, mem_get_addAll _ _ also.coherent.upstreamFormed.distinct, shows.members, also.members]

/-- Any number of graphs, each with what it shows. -/
theorem shows_mergeAll {ι : Type} {given : List ι} {graphs : List Graph} {files : ι → String → Prop}
    {pairs : ι → String → String → Prop}
    (each : List.Forall₂ (fun one graph => Shows graph (files one) (pairs one)) given graphs) :
    (mergeAll graphs).Shows (fun file => ∃ one ∈ given, files one file)
      (fun file next => ∃ one ∈ given, pairs one file next) := by
  -- Merging goes on from what was merged before, not only from the empty graph.
  have run : ∀ start before beforePairs, Shows start before beforePairs →
      (graphs.foldl merge start).Shows (fun file => before file ∨ ∃ one ∈ given, files one file)
        (fun file next => beforePairs file next ∨ ∃ one ∈ given, pairs one file next) := by
    induction each with
    | nil =>
      intro start before beforePairs shows
      exact shows_congr shows (by simp) (by simp)
    | cons head _ ih =>
      intro start before beforePairs shows
      rw [List.foldl_cons]
      apply shows_congr (ih _ _ _ (shows_merge shows head))
      · simp [or_assoc]
      · simp [or_assoc]
  exact shows_congr (run empty _ _ shows_empty) (by simp) (by simp)

theorem shows_below (shows : graph.Shows files pairs) (root : String) :
    (graph.below root).Shows (fun file => files file ∧ Path.isBelow root file = true)
      (fun file next => pairs file next ∧ Path.isBelow root file = true ∧ Path.isBelow root next = true) where
  coherent := coherent_below shows.coherent root
  keys file := by rw [mem_keys_below, shows.keys]
  members file next := by rw [below, mem_get_restrict, shows.members]

theorem filter_located {host : Host} {root : String} (located : host.locate root = .ok root)
    (shows : graph.Shows files pairs) : ∃ part, filter host graph (.text root) = .ok part
      ∧ part.Shows (fun file => files file ∧ Path.isBelow root file = true)
        (fun file next => pairs file next ∧ Path.isBelow root file = true ∧ Path.isBelow root next = true) := by
  have placed : host.locateValue (.text root) = .ok root := located
  rw [filter, if_neg (by simp [Document.isNull])]
  by_cases bare : (graph.upstream.isEmpty && graph.downstream.isEmpty) = true
  · rw [if_pos bare]
    refine ⟨empty, rfl, ?_⟩
    rw [Bool.and_eq_true, List.isEmpty_iff, List.isEmpty_iff] at bare
    obtain ⟨upstream, downstream⟩ := graph
    obtain ⟨rfl, rfl⟩ := bare
    apply shows_congr shows_empty
    · intro file
      rw [← shows.keys]
      simp [DependencyMap.keys]
    · intro file next
      rw [← shows.members]
      simp [DependencyMap.get, find?]
  · rw [if_neg bare, placed]
    exact ⟨graph.below root, rfl, shows_below shows root⟩

end Saying

section Results

variable {host : Host} {results : List FileDependencies}

def CanonicalResult (host : Host) (result : FileDependencies) : Prop :=
  host.locate result.file = .ok result.file
    ∧ ∀ dependency ∈ result.dependencies, host.locate dependency = .ok dependency

def Named (results : List FileDependencies) (file : String) : Prop :=
  ∃ result ∈ results, file = result.file ∨ file ∈ result.dependencies

def Stated (results : List FileDependencies) (file next : String) : Prop :=
  ∃ result ∈ results, result.file = file ∧ next ∈ result.dependencies ∧ next ≠ file

theorem canonicalRow_of_canonical {result : FileDependencies} (canonical : CanonicalResult host result) :
    canonicalRow host result = .ok (result.file, result.dependencies) := by
  have dependencies : result.dependencies.mapM host.locate = .ok result.dependencies := by
    have each : result.dependencies.mapM host.locate = .ok (result.dependencies.map id) := mapM_of_each canonical.2
    rwa [List.map_id] at each
  rw [canonicalRow, canonical.1]
  show (result.dependencies.mapM host.locate >>= _) = _
  rw [dependencies]
  rfl

theorem ofDirect_of_canonical (canonical : ∀ result ∈ results, CanonicalResult host result) :
    ∃ graph, ofDirect host results = .ok graph ∧ graph.Shows (Named results) (Stated results) := by
  have rows : results.mapM (canonicalRow host) =
      .ok (results.map fun result => (result.file, result.dependencies)) :=
    mapM_of_each fun result member => canonicalRow_of_canonical (canonical result member)
  rw [ofDirect, rows]
  refine ⟨_, rfl, coherent_ofRows _, ?_, ?_⟩
  · intro file
    rw [mem_keys_ofRows]
    simp [Named]
  · intro file next
    rw [mem_get_ofRows]
    simp [Stated]

theorem named_flatten {parts : List (List FileDependencies)} (file : String) :
    Named parts.flatten file ↔ ∃ results ∈ parts, Named results file := by
  simp only [Named, List.mem_flatten]
  constructor
  · rintro ⟨result, ⟨results, listed, member⟩, mentioned⟩
    exact ⟨results, listed, result, member, mentioned⟩
  · rintro ⟨results, listed, result, member, mentioned⟩
    exact ⟨result, ⟨results, listed, member⟩, mentioned⟩

theorem stated_flatten {parts : List (List FileDependencies)} (file next : String) :
    Stated parts.flatten file next ↔ ∃ results ∈ parts, Stated results file next := by
  simp only [Stated, List.mem_flatten]
  constructor
  · rintro ⟨result, ⟨results, listed, member⟩, states⟩
    exact ⟨results, listed, result, member, states⟩
  · rintro ⟨results, listed, result, member, states⟩
    exact ⟨result, ⟨results, listed, member⟩, states⟩

/-- What canonical results show together below a root. -/
def ShowsBelow (root : String) (results : List FileDependencies) (graph : Graph) : Prop :=
  graph.Shows (fun file => Named results file ∧ Path.isBelow root file = true)
    (fun file next => Stated results file next ∧ Path.isBelow root file = true ∧ Path.isBelow root next = true)

theorem direct_showsBelow {root : String} (located : host.locate root = .ok root)
    (canonical : ∀ result ∈ results, CanonicalResult host result) :
    ∃ graph, (ofDirect host results >>= fun whole => filter host whole (.text root)) = .ok graph
      ∧ ShowsBelow root results graph := by
  obtain ⟨whole, made, shows⟩ := ofDirect_of_canonical canonical
  obtain ⟨part, kept, below⟩ := filter_located located shows
  exact ⟨part, by rw [made]; exact kept, below⟩

theorem same_of_showsBelow {root : String} {others : List FileDependencies} {graph other : Graph}
    (shows : ShowsBelow root results graph) (also : ShowsBelow root others other)
    (members : ∀ result, result ∈ results ↔ result ∈ others) : graph.same other = true := by
  apply same_of_shows shows also
  · intro file
    simp only [Named, members]
  · intro file next
    simp only [Stated, members]

theorem merge_showsBelow {root : String} {others : List FileDependencies} {graph other : Graph}
    (shows : ShowsBelow root results graph) (also : ShowsBelow root others other) :
    ShowsBelow root (results ++ others) (graph.merge other) := by
  apply shows_congr (shows_merge shows also)
  · intro file
    simp only [Named, List.mem_append, or_and_right, exists_or]
  · intro file next
    simp only [Stated, List.mem_append, or_and_right, exists_or]

end Results

end DeclGraph.Graph

namespace DeclGraph.Service

open DeclGraph.Graph

/-- Canonical results of units are always assembled, to what they show together. -/
theorem assemble_showsBelow {host : Host} {root : String} (located : host.locate root = .ok root)
    {parts : List (List FileDependencies)}
    (canonical : ∀ results ∈ parts, ∀ result ∈ results, CanonicalResult host result) :
    ∃ graph, assemble host root parts = .ok graph ∧ ShowsBelow root parts.flatten graph := by
  have each : List.Forall₂ (fun results graph => ofDirect host results = .ok graph
      ∧ graph.Shows (Named results) (Stated results)) parts
      (parts.map fun results => (ofDirect host results).toOption.getD empty) := by
    rw [List.forall₂_map_right_iff, List.forall₂_same]
    intro results listed
    obtain ⟨graph, made, shows⟩ := ofDirect_of_canonical (canonical results listed)
    rw [made]
    exact ⟨rfl, shows⟩
  have made := mapM_eq_ok.mpr (each.imp fun _ _ both => both.1)
  obtain ⟨graph, kept, shows⟩ := filter_located located (shows_mergeAll (each.imp fun _ _ both => both.2))
  refine ⟨graph, ?_, ?_⟩
  · rw [assemble, made]
    exact kept
  · apply shows_congr shows
    · intro file
      rw [named_flatten]
    · intro file next
      rw [stated_flatten]

end DeclGraph.Service
