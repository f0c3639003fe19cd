import DeclGraph.Graph.Basic
import DeclGraph.Proofs.CanonicalPath
import DeclGraph.Proofs.DependencyMaps

/-!
Coherent graphs: the two maps are each other's reverse, no file stands in its own set, and both maps
have the same keys. A graph without violations is coherent and the other way round. The empty graph, a
graph of direct dependencies, and what merging and filtering make of coherent graphs are coherent.
-/

namespace DeclGraph.Graph

open DependencyMap

/-- The two maps keep in step. -/
structure Coherent (graph : Graph) : Prop where
  upstreamFormed : graph.upstream.WellFormed
  downstreamFormed : graph.downstream.WellFormed
  reversed : ∀ file other, other ∈ graph.upstream.get file ↔ file ∈ graph.downstream.get other
  loopless : ∀ file, file ∉ graph.upstream.get file
  sameKeys : ∀ file, file ∈ graph.upstream.keys ↔ file ∈ graph.downstream.keys

/-- A file that one of the maps holds as a key or in a set. -/
def Mentions (graph : Graph) (file : String) : Prop :=
  (∃ row ∈ graph.upstream, file = row.1 ∨ file ∈ row.2)
    ∨ ∃ row ∈ graph.downstream, file = row.1 ∨ file ∈ row.2

namespace Coherent

variable {graph : Graph}

theorem downstream_loopless (coherent : graph.Coherent) (file : String) :
    file ∉ graph.downstream.get file :=
  fun member => coherent.loopless file ((coherent.reversed file file).mpr member)

theorem key_of_upstream (coherent : graph.Coherent) {file other : String}
    (member : other ∈ graph.upstream.get file) :
    file ∈ graph.upstream.keys ∧ other ∈ graph.upstream.keys :=
  ⟨mem_keys_of_mem_get member, (coherent.sameKeys other).mpr
    (mem_keys_of_mem_get ((coherent.reversed file other).mp member))⟩

theorem key_of_downstream (coherent : graph.Coherent) {file other : String}
    (member : other ∈ graph.downstream.get file) :
    file ∈ graph.upstream.keys ∧ other ∈ graph.upstream.keys :=
  (coherent.key_of_upstream ((coherent.reversed other file).mpr member)).symm

theorem mem_files (coherent : graph.Coherent) (file : String) : file ∈ graph.files ↔ file ∈ graph.upstream.keys := by
  rw [files, FileSet.mem_ofList, List.mem_append, ← coherent.sameKeys, or_self]

theorem key_of_mentions (coherent : graph.Coherent) {file : String} (mentioned : graph.Mentions file) :
    file ∈ graph.upstream.keys := by
  rcases mentioned with ⟨row, member, same | listed⟩ | ⟨row, member, same | listed⟩
  · exact same ▸ mem_keys_of_mem member
  · rw [← get_of_mem coherent.upstreamFormed.distinct member] at listed
    exact (coherent.key_of_upstream listed).2
  · exact (coherent.sameKeys file).mpr (same ▸ mem_keys_of_mem member)
  · rw [← get_of_mem coherent.downstreamFormed.distinct member] at listed
    exact (coherent.key_of_downstream listed).2

end Coherent

/-! ### Violations -/

theorem upstreamViolations_eq_nil (graph : Graph) (row : String × FileSet) :
    graph.upstreamViolations row = [] ↔
      row.1 ∉ row.2 ∧ ∀ file ∈ row.2, row.1 ∈ graph.downstream.get file := by
  rw [upstreamViolations, List.append_eq_nil_iff, List.map_eq_nil_iff, List.filter_eq_nil_iff]
  simp only [decide_eq_true_eq, not_not]
  apply and_congr_left'
  split <;> simp_all

theorem downstreamViolations_eq_nil (graph : Graph) (row : String × FileSet) :
    graph.downstreamViolations row = [] ↔
      row.1 ∉ row.2 ∧ ∀ file ∈ row.2, row.1 ∈ graph.upstream.get file := by
  rw [downstreamViolations, List.append_eq_nil_iff, List.map_eq_nil_iff, List.filter_eq_nil_iff]
  simp only [decide_eq_true_eq, not_not]
  apply and_congr_left'
  split <;> simp_all

theorem onlyIn_eq_nil (map other : DependencyMap) :
    onlyIn map other = [] ↔ ∀ file ∈ map.keys, file ∈ other.keys := by
  rw [onlyIn, List.eq_nil_iff_forall_not_mem]
  simp [FileSet.mem_ofList]

theorem violations_eq_nil_iff {graph : Graph} (upstreamFormed : graph.upstream.WellFormed)
    (downstreamFormed : graph.downstream.WellFormed) : graph.violations = [] ↔ graph.Coherent := by
  simp only [violations, List.append_eq_nil_iff, List.flatMap_eq_nil_iff, List.map_eq_nil_iff,
    upstreamViolations_eq_nil, downstreamViolations_eq_nil, onlyIn_eq_nil]
  constructor
  · rintro ⟨⟨⟨upstream, downstream⟩, noDownstream⟩, noUpstream⟩
    refine ⟨upstreamFormed, downstreamFormed, ?_, ?_, fun file => ⟨noDownstream file, noUpstream file⟩⟩
    · intro file other
      constructor
      · intro member
        rcases row_of_mem_get member with ⟨row, listed, rfl, inRow⟩
        exact (upstream row listed).2 other inRow
      · intro member
        rcases row_of_mem_get member with ⟨row, listed, rfl, inRow⟩
        exact (downstream row listed).2 file inRow
    · intro file member
      rcases row_of_mem_get member with ⟨row, listed, rfl, inRow⟩
      exact (upstream row listed).1 inRow
  · intro coherent
    refine ⟨⟨⟨?_, ?_⟩, fun file => (coherent.sameKeys file).mp⟩,
      fun file => (coherent.sameKeys file).mpr⟩
    · intro row member
      rw [← get_of_mem upstreamFormed.distinct member]
      exact ⟨coherent.loopless row.1, fun file => (coherent.reversed row.1 file).mp⟩
    · intro row member
      rw [← get_of_mem downstreamFormed.distinct member]
      exact ⟨coherent.downstream_loopless row.1, fun file => (coherent.reversed file row.1).mpr⟩

theorem Coherent.violations_eq_nil {graph : Graph} (coherent : graph.Coherent) :
    graph.violations = [] :=
  (violations_eq_nil_iff coherent.upstreamFormed coherent.downstreamFormed).mpr coherent

theorem isValid_iff (graph : Graph) : graph.isValid = true ↔ graph.violations = [] := by
  rw [isValid, List.isEmpty_iff]

/-! ### Direct dependencies -/

theorem mem_keys_addDependency (map : DependencyMap) (file dependency other : String) :
    other ∈ (addDependency map file dependency).keys ↔
      (dependency ≠ file ∧ (other = dependency ∨ other = file)) ∨ other ∈ map.keys := by
  by_cases same : dependency = file
  · simp [addDependency, same]
  · simp [addDependency, same, mem_keys_add, or_assoc]

theorem mem_get_addDependency (map : DependencyMap) (file dependency key other : String) :
    other ∈ (addDependency map file dependency).get key ↔
      (key = file ∧ other = dependency ∧ other ≠ file) ∨ other ∈ map.get key := by
  by_cases same : dependency = file
  · simp [addDependency, same]
  · simp only [addDependency, same, ↓reduceIte, mem_get_add, List.mem_singleton, List.not_mem_nil,
      and_false, false_or]
    constructor
    · rintro (⟨here, rfl⟩ | old)
      · exact Or.inl ⟨here, rfl, same⟩
      · exact Or.inr old
    · rintro (⟨here, rfl, _⟩ | old)
      · exact Or.inl ⟨here, rfl⟩
      · exact Or.inr old

theorem wellFormed_addDependency {map : DependencyMap} (formed : map.WellFormed)
    (file dependency : String) : (addDependency map file dependency).WellFormed := by
  by_cases same : dependency = file
  · simpa [addDependency, same] using formed
  · simpa [addDependency, same] using wellFormed_add (wellFormed_add formed file [dependency]) dependency []

theorem foldl_addDependency (map : DependencyMap) (formed : map.WellFormed) (file : String)
    (dependencies : List String) (entered : file ∈ map.keys) :
    let added := dependencies.foldl (fun map dependency => addDependency map file dependency) map
    added.WellFormed
      ∧ (∀ other, other ∈ added.keys ↔ other ∈ dependencies ∨ other ∈ map.keys)
      ∧ ∀ key other, other ∈ added.get key ↔
        (key = file ∧ other ∈ dependencies ∧ other ≠ file) ∨ other ∈ map.get key := by
  induction dependencies generalizing map with
  | nil => exact ⟨formed, by simp, by simp⟩
  | cons dependency rest ih =>
    have still : file ∈ (addDependency map file dependency).keys :=
      (mem_keys_addDependency map file dependency file).mpr (Or.inr entered)
    rcases ih _ (wellFormed_addDependency formed file dependency) still with ⟨kept, keys, members⟩
    refine ⟨kept, fun other => ?_, fun key other => ?_⟩
    · -- The file has an entry by now, so each dependency brings no key but its own.
      rw [List.foldl_cons, keys, mem_keys_addDependency, List.mem_cons]
      constructor
      · rintro (later | ⟨_, here | same⟩ | old)
        · exact Or.inl (Or.inr later)
        · exact Or.inl (Or.inl here)
        · exact Or.inr (same ▸ entered)
        · exact Or.inr old
      · rintro ((here | later) | old)
        · by_cases same : dependency = file
          · exact Or.inr (Or.inr (here.trans same ▸ entered))
          · exact Or.inr (Or.inl ⟨same, Or.inl here⟩)
        · exact Or.inl later
        · exact Or.inr (Or.inr old)
    · rw [List.foldl_cons, members, mem_get_addDependency, List.mem_cons]
      tauto

/-- What adding one declaration does to keys and members. -/
theorem addDeclaration_spec (map : DependencyMap) (formed : map.WellFormed) (file : String)
    (dependencies : List String) :
    (addDeclaration map file dependencies).WellFormed
      ∧ (∀ other, other ∈ (addDeclaration map file dependencies).keys ↔
        (other = file ∨ other ∈ dependencies) ∨ other ∈ map.keys)
      ∧ ∀ key other, other ∈ (addDeclaration map file dependencies).get key ↔
        (key = file ∧ other ∈ dependencies ∧ other ≠ file) ∨ other ∈ map.get key := by
  have entered : file ∈ (map.add file []).keys := (mem_keys_add map file file []).mpr (Or.inl rfl)
  rcases foldl_addDependency _ (wellFormed_add formed file []) file dependencies entered with
    ⟨kept, keys, members⟩
  refine ⟨kept, fun other => ?_, fun key other => ?_⟩
  · rw [addDeclaration, keys, mem_keys_add, or_left_comm, or_assoc]
  · rw [addDeclaration, members, mem_get_add]
    simp

theorem foldl_addDeclaration (rows : List (String × List String)) (map : DependencyMap)
    (formed : map.WellFormed) :
    let added := rows.foldl (fun map row => addDeclaration map row.1 row.2) map
    added.WellFormed
      ∧ (∀ other, other ∈ added.keys ↔
        (∃ row ∈ rows, other = row.1 ∨ other ∈ row.2) ∨ other ∈ map.keys)
      ∧ ∀ key other, other ∈ added.get key ↔
        (∃ row ∈ rows, row.1 = key ∧ other ∈ row.2 ∧ other ≠ key) ∨ other ∈ map.get key := by
  induction rows generalizing map with
  | nil => exact ⟨formed, by simp, by simp⟩
  | cons row rest ih =>
    rcases addDeclaration_spec map formed row.1 row.2 with ⟨once, onceKeys, onceMembers⟩
    rcases ih _ once with ⟨kept, keys, members⟩
    refine ⟨kept, fun other => ?_, fun key other => ?_⟩
    · rw [List.foldl_cons, keys, onceKeys]
      simp only [List.mem_cons, exists_eq_or_imp]
      rw [← or_assoc, or_comm (a := ∃ row, _)]
    · rw [List.foldl_cons, members, onceMembers]
      simp only [List.mem_cons, exists_eq_or_imp]
      rw [or_left_comm, or_assoc]
      constructor
      · rintro (⟨rfl, here⟩ | old)
        · exact Or.inl ⟨rfl, here⟩
        · exact Or.inr old
      · rintro (⟨rfl, here⟩ | old)
        · exact Or.inl ⟨rfl, here⟩
        · exact Or.inr old

theorem mem_keys_ofRows (rows : List (String × List String)) (file : String) :
    file ∈ (ofRows rows).upstream.keys ↔ ∃ row ∈ rows, file = row.1 ∨ file ∈ row.2 := by
  rw [ofRows, (foldl_addDeclaration rows [] wellFormed_nil).2.1]
  simp [keys]

/-- The pairs of a graph of direct dependencies are the given ones, without loops. -/
theorem mem_get_ofRows (rows : List (String × List String)) (file other : String) :
    other ∈ (ofRows rows).upstream.get file ↔
      ∃ row ∈ rows, row.1 = file ∧ other ∈ row.2 ∧ other ≠ file := by
  rw [ofRows, (foldl_addDeclaration rows [] wellFormed_nil).2.2]
  simp

theorem coherent_ofRows (rows : List (String × List String)) : (ofRows rows).Coherent := by
  have formed : (ofRows rows).upstream.WellFormed := (foldl_addDeclaration rows [] wellFormed_nil).1
  refine ⟨formed, wellFormed_transpose _, ?_, ?_, ?_⟩
  · exact fun file other => (mem_get_transpose formed.distinct other file).symm
  · intro file member
    rcases (mem_get_ofRows rows file file).mp member with ⟨_, _, _, _, different⟩
    exact different rfl
  · intro file
    change _ ↔ file ∈ (ofRows rows).upstream.transpose.keys
    rw [mem_keys_transpose]
    constructor
    · intro key
      rcases List.mem_map.mp key with ⟨row, member, rfl⟩
      exact ⟨row, member, Or.inl rfl⟩
    · rintro ⟨row, member, same | listed⟩
      · exact same ▸ mem_keys_of_mem member
      · -- A member of a set was mentioned as a dependency, so it has an entry of its own.
        rw [← get_of_mem formed.distinct member] at listed
        rcases (mem_get_ofRows rows _ _).mp listed with ⟨given, inRows, _, named, _⟩
        exact (mem_keys_ofRows rows file).mpr ⟨given, inRows, Or.inr named⟩

/-! ### Empty, merged and filtered graphs -/

theorem coherent_empty : empty.Coherent :=
  ⟨wellFormed_nil, wellFormed_nil, by simp [empty], by simp [empty], by simp [empty]⟩

theorem coherent_merge {graph other : Graph} (coherent : graph.Coherent) (also : other.Coherent) :
    (graph.merge other).Coherent where
  upstreamFormed := wellFormed_addAll coherent.upstreamFormed _
  downstreamFormed := wellFormed_addAll coherent.downstreamFormed _
  reversed file next := by
    rw [merge, mem_get_addAll _ _ also.upstreamFormed.distinct,
      mem_get_addAll _ _ also.downstreamFormed.distinct, coherent.reversed, also.reversed]
  loopless file := by
    rw [merge, mem_get_addAll _ _ also.upstreamFormed.distinct]
    exact not_or.mpr ⟨coherent.loopless file, also.loopless file⟩
  sameKeys file := by
    rw [merge, mem_keys_addAll, mem_keys_addAll, coherent.sameKeys, also.sameKeys]

theorem mem_keys_merge (graph other : Graph) (file : String) :
    file ∈ (graph.merge other).upstream.keys ↔
      file ∈ graph.upstream.keys ∨ file ∈ other.upstream.keys :=
  mem_keys_addAll _ _ _

theorem coherent_below {graph : Graph} (coherent : graph.Coherent) (root : String) :
    (graph.below root).Coherent where
  upstreamFormed := wellFormed_restrict coherent.upstreamFormed _
  downstreamFormed := wellFormed_restrict coherent.downstreamFormed _
  reversed file next := by
    rw [below, mem_get_restrict, mem_get_restrict, coherent.reversed, and_comm (a := Path.isBelow root file = true)]
  loopless file := by
    rw [below, mem_get_restrict]
    exact fun member => coherent.loopless file member.1
  sameKeys file := by
    rw [below, mem_keys_restrict, mem_keys_restrict, coherent.sameKeys]

theorem mem_keys_below (graph : Graph) (root file : String) :
    file ∈ (graph.below root).upstream.keys ↔
      file ∈ graph.upstream.keys ∧ Path.isBelow root file = true :=
  mem_keys_restrict _ _ _

theorem coherent_of_perm {graph order : Graph} (coherent : graph.Coherent)
    (upstream : List.Perm order.upstream graph.upstream)
    (downstream : List.Perm order.downstream graph.downstream) : order.Coherent where
  upstreamFormed := wellFormed_of_perm coherent.upstreamFormed upstream
  downstreamFormed := wellFormed_of_perm coherent.downstreamFormed downstream
  reversed file other := by
    rw [mem_get_of_perm coherent.upstreamFormed upstream, mem_get_of_perm coherent.downstreamFormed downstream]
    exact coherent.reversed file other
  loopless file := by
    rw [mem_get_of_perm coherent.upstreamFormed upstream]
    exact coherent.loopless file
  sameKeys file := by
    rw [mem_keys_of_perm upstream, mem_keys_of_perm downstream]
    exact coherent.sameKeys file

end DeclGraph.Graph
