import DeclGraph.Graph.Operand
import DeclGraph.Proofs.Reload

/-!
Graphs over whole runs. A graph can start empty, from direct dependencies in any spelling or from a saved
text, and can then be merged and filtered any number of times, while the working directory and the file
tree change. Whatever comes out keeps its two maps in step, under canonical paths only.
-/

namespace DeclGraph.Graph

open DependencyMap

/-- The graphs that a run can come to. The hosts of one run agree on letter case and on nothing else. -/
inductive Assembled (folds : Bool) : Graph → Prop
  | empty : Assembled folds Graph.empty
  | direct {host : Host} {results : List FileDependencies} {graph : Graph}
      (agreed : host.foldsCase = folds) (built : ofDirect host results = .ok graph) : Assembled folds graph
  | directValues {host : Host} {rows : Option (List (Option (Document × Document)))} {graph : Graph}
      (agreed : host.foldsCase = folds) (built : ofDirectValues host rows = .ok graph) :
      Assembled folds graph
  | merge {graph other : Graph} (left : Assembled folds graph) (right : Assembled folds other) :
      Assembled folds (graph.merge other)
  | mergeAll {graphs : List Graph} (each : ∀ graph ∈ graphs, Assembled folds graph) :
      Assembled folds (mergeAll graphs)
  | filter {host : Host} {graph part : Graph} {root : Document} (agreed : host.foldsCase = folds)
      (whole : Assembled folds graph) (kept : filter host graph root = .ok part) : Assembled folds part
  | restored {host : Host} {world after : World} {text root : Document} {graph : Graph}
      (agreed : host.foldsCase = folds)
      (reloaded : (Saved.restore host text root).outcome world = (.ok (some graph), after)) :
      Assembled folds graph

/-- A path that every host with the same letter case takes for canonical. -/
def Settled (folds : Bool) (file : String) : Prop :=
  ∀ host : Host, host.foldsCase = folds → host.locate file = .ok file

theorem settled_canonical {folds : Bool} {host : Host} (agreed : host.foldsCase = folds) (path : String) :
    Settled folds (host.canonical path) := by
  intro other also
  exact Host.locate_eq_ok.mpr ⟨Saved.canonical_ne_empty host path,
    other.canonical_canonical host (also.trans agreed.symm) path⟩

theorem settled_of_locate {folds : Bool} {host : Host} (agreed : host.foldsCase = folds)
    {path place : String} (located : host.locate path = .ok place) : Settled folds place :=
  (Host.locate_eq_ok.mp located).2 ▸ settled_canonical agreed path

theorem settled_of_locateValue {folds : Bool} {host : Host} (agreed : host.foldsCase = folds)
    {value : Document} {place : String} (located : host.locateValue value = .ok place) :
    Settled folds place := by
  obtain ⟨path, _, _, same⟩ := Host.locateValue_eq_ok located
  exact same ▸ settled_canonical agreed path

/-- What every graph of a run keeps: the maps in step, and canonical keys. -/
structure InStep (folds : Bool) (graph : Graph) : Prop where
  coherent : graph.Coherent
  settled : ∀ file ∈ graph.upstream.keys, Settled folds file

namespace InStep

variable {folds : Bool} {graph other : Graph}

theorem empty : InStep folds Graph.empty :=
  ⟨coherent_empty, by simp [Graph.empty, keys]⟩

theorem ofRows {rows : List (String × List String)}
    (settled : ∀ row ∈ rows, ∀ file, file = row.1 ∨ file ∈ row.2 → Settled folds file) :
    InStep folds (ofRows rows) := by
  refine ⟨coherent_ofRows rows, fun file member => ?_⟩
  obtain ⟨row, listed, mentioned⟩ := (mem_keys_ofRows rows file).mp member
  exact settled row listed file mentioned

theorem merge (left : InStep folds graph) (right : InStep folds other) : InStep folds (graph.merge other) := by
  refine ⟨coherent_merge left.coherent right.coherent, fun file member => ?_⟩
  rcases (mem_keys_merge graph other file).mp member with here | there
  · exact left.settled file here
  · exact right.settled file there

theorem mergeAll {graphs : List Graph} (each : ∀ graph ∈ graphs, InStep folds graph) :
    InStep folds (mergeAll graphs) := by
  -- Merging goes on from what was merged before, not only from the empty graph.
  have run : ∀ start, InStep folds start → InStep folds (graphs.foldl Graph.merge start) := by
    induction graphs with
    | nil => exact fun start inStep => inStep
    | cons graph rest ih =>
      intro start inStep
      have first := each graph List.mem_cons_self
      exact ih (fun graph member => each graph (List.mem_cons_of_mem _ member)) _ (inStep.merge first)
  exact run Graph.empty empty

theorem below (whole : InStep folds graph) (root : String) : InStep folds (graph.below root) := by
  refine ⟨coherent_below whole.coherent root, fun file member => ?_⟩
  exact whole.settled file ((mem_keys_below graph root file).mp member).1

theorem filter {host : Host} {part : Graph} {root : Document} (whole : InStep folds graph)
    (kept : Graph.filter host graph root = .ok part) : InStep folds part := by
  unfold Graph.filter at kept
  split at kept
  next => cases kept
  next =>
    split at kept
    next =>
      cases kept
      exact empty
    next =>
      obtain ⟨base, _, same⟩ := bind_eq_ok.mp kept
      cases same
      exact whole.below base

end InStep

theorem inStep_ofDirect {folds : Bool} {host : Host} {results : List FileDependencies} {graph : Graph}
    (agreed : host.foldsCase = folds) (built : ofDirect host results = .ok graph) : InStep folds graph := by
  obtain ⟨rows, located, same⟩ := bind_eq_ok.mp built
  cases same
  refine InStep.ofRows fun row listed file mentioned => ?_
  obtain ⟨result, _, placed⟩ := exists_of_mem_right (mapM_eq_ok.mp located) listed
  obtain ⟨own, ownLocated, placed⟩ := bind_eq_ok.mp placed
  obtain ⟨others, othersLocated, placed⟩ := bind_eq_ok.mp placed
  cases placed
  rcases mentioned with rfl | member
  · exact settled_of_locate agreed ownLocated
  · obtain ⟨path, _, located⟩ := exists_of_mem_right (mapM_eq_ok.mp othersLocated) member
    exact settled_of_locate agreed located

theorem settled_rowOfValues {folds : Bool} {host : Host} (agreed : host.foldsCase = folds)
    {given : Document × Document} {row : String × List String} (placed : rowOfValues host given = .ok row)
    {file : String} (mentioned : file = row.1 ∨ file ∈ row.2) : Settled folds file := by
  obtain ⟨own, ownLocated, placed⟩ := bind_eq_ok.mp placed
  split at placed
  next => cases placed
  next elements _ =>
    obtain ⟨others, othersLocated, placed⟩ := bind_eq_ok.mp placed
    cases placed
    rcases mentioned with rfl | member
    · exact settled_of_locateValue agreed ownLocated
    · obtain ⟨value, _, located⟩ := exists_of_mem_right (mapM_eq_ok.mp othersLocated) member
      exact settled_of_locateValue agreed located

theorem inStep_ofDirectValues {folds : Bool} {host : Host}
    {rows : Option (List (Option (Document × Document)))} {graph : Graph}
    (agreed : host.foldsCase = folds) (built : ofDirectValues host rows = .ok graph) :
    InStep folds graph := by
  cases rows with
  | none => cases built
  | some given =>
    obtain ⟨found, located, same⟩ := bind_eq_ok.mp built
    cases same
    refine InStep.ofRows fun row listed file mentioned => ?_
    obtain ⟨value, _, placed⟩ := exists_of_mem_right (mapM_eq_ok.mp located) listed
    cases value with
    | none => cases placed
    | some given => exact settled_rowOfValues agreed placed mentioned

theorem inStep_restored {folds : Bool} {host : Host} {world after : World} {text root : Document} {graph : Graph}
    (agreed : host.foldsCase = folds)
    (reloaded : (Saved.restore host text root).outcome world = (.ok (some graph), after)) :
    InStep folds graph := by
  obtain ⟨accepted, _⟩ := Saved.readUnder_of_restore reloaded
  obtain ⟨_, base, _, _, _, _, _, _, found⟩ := Saved.readUnder_eq_ok.mp accepted
  refine ⟨Saved.coherent_of_read found, fun file member => ?_⟩
  obtain ⟨entries, rfl, _⟩ := Saved.read_eq_ok.mp found
  obtain ⟨set, listed⟩ : ∃ set, (file, set) ∈ graph.upstream := by
    obtain ⟨row, listed, rfl⟩ := List.mem_map.mp member
    exact ⟨row.2, listed⟩
  obtain ⟨admitted, _⟩ := Saved.source_of_read found (Or.inl ⟨_, listed, Or.inl rfl⟩)
  exact settled_of_locate agreed admitted.fixed

/-- One case for each way to come to a graph. -/
theorem inStep_of_assembled {folds : Bool} {graph : Graph} (assembled : Assembled folds graph) :
    InStep folds graph := by
  induction assembled with
  | empty => exact .empty
  | direct agreed built => exact inStep_ofDirect agreed built
  | directValues agreed built => exact inStep_ofDirectValues agreed built
  | merge _ _ left right => exact left.merge right
  | mergeAll _ each => exact .mergeAll each
  | filter _ _ kept whole => exact whole.filter kept
  | restored agreed reloaded => exact inStep_restored agreed reloaded

/-- Over whole runs the two maps of a graph keep in step: whatever they mention is a canonical path, one
is the reverse of the other, no file is its own neighbour, and every file mentioned is a key of both. So
nothing is ever found wrong with such a graph. -/
theorem assembled_in_step {folds : Bool} {graph : Graph} (assembled : Assembled folds graph) :
    (∀ file, graph.Mentions file → ∀ host : Host, host.foldsCase = folds → host.locate file = .ok file)
      ∧ (∀ file other, other ∈ graph.upstreamOf file ↔ file ∈ graph.downstreamOf other)
      ∧ (∀ file, file ∉ graph.upstreamOf file ∧ file ∉ graph.downstreamOf file)
      ∧ (∀ file, file ∈ graph.upstream.keys ↔ file ∈ graph.downstream.keys)
      ∧ (∀ file, graph.Mentions file → file ∈ graph.upstream.keys ∧ file ∈ graph.downstream.keys)
      ∧ graph.upstream.keys.Nodup ∧ graph.downstream.keys.Nodup
      ∧ graph.isValid = true ∧ graph.violations = [] := by
  obtain ⟨coherent, settled⟩ := inStep_of_assembled assembled
  have clean := coherent.violations_eq_nil
  refine ⟨?_, coherent.reversed, ?_, coherent.sameKeys, ?_, coherent.upstreamFormed.distinct,
    coherent.downstreamFormed.distinct, (isValid_iff graph).mpr clean, clean⟩
  · intro file mentioned host agreed
    exact settled file (coherent.key_of_mentions mentioned) host agreed
  · exact fun file => ⟨coherent.loopless file, coherent.downstream_loopless file⟩
  · intro file mentioned
    have key := coherent.key_of_mentions mentioned
    exact ⟨key, (coherent.sameKeys file).mp key⟩

def sampleRun : Graph :=
  ⟨[("/w/a", ["/w/b", "/w/c"]), ("/w/b", []), ("/w/c", ["/w/a"])],
    [("/w/a", ["/w/c"]), ("/w/b", ["/w/a"]), ("/w/c", ["/w/a"])]⟩

theorem assembled_sampleRun : Assembled false sampleRun := by
  have declared : ofDirect Saved.sampleHost
      [⟨"x/../a", ["./c", "a", "/v"], .null⟩, ⟨"c", ["../w//a"], .null⟩] =
      .ok ⟨[("/w/a", ["/v", "/w/c"]), ("/w/c", ["/w/a"]), ("/v", [])],
        [("/w/a", ["/w/c"]), ("/v", ["/w/a"]), ("/w/c", ["/w/a"])]⟩ :=
    eq_ok_of_toOption (by decide +kernel)
  have filtered : filter Saved.sampleHost ⟨[("/w/a", ["/v", "/w/c"]), ("/w/c", ["/w/a"]), ("/v", [])],
      [("/w/a", ["/w/c"]), ("/v", ["/w/a"]), ("/w/c", ["/w/a"])]⟩ (.text "x/..") =
      .ok ⟨[("/w/a", ["/w/c"]), ("/w/c", ["/w/a"])], [("/w/a", ["/w/c"]), ("/w/c", ["/w/a"])]⟩ :=
    eq_ok_of_toOption (by decide +kernel)
  have part := Assembled.filter rfl (.direct rfl declared) filtered
  have saved : Assembled false Saved.sampleGraph := .restored rfl Saved.restore_sample
  have merged : mergeAll [Saved.sampleGraph,
      ⟨[("/w/a", ["/w/c"]), ("/w/c", ["/w/a"])], [("/w/a", ["/w/c"]), ("/w/c", ["/w/a"])]⟩] = sampleRun := by
    decide +kernel
  rw [← merged]
  apply Assembled.mergeAll
  intro graph member
  rcases List.mem_cons.mp member with rfl | member
  · exact saved
  · cases List.mem_singleton.mp member
    exact part

theorem assembled_in_step_sampleRun :
    Assembled false sampleRun ∧ sampleRun.isValid = true ∧ sampleRun.violations = [] := by
  obtain ⟨_, _, _, _, _, _, _, valid, clean⟩ := assembled_in_step assembled_sampleRun
  exact ⟨assembled_sampleRun, valid, clean⟩

end DeclGraph.Graph
