import Mathlib.Data.List.Nodup
import DeclGraph.Proofs.SavedGraph

/-!
What is wrong with two maps that should be each other's reverse. Nothing is wrong exactly when they are, without loops
and with the same keys; otherwise every departure is listed once, and nothing else is. A file without a row counts as
one that has no files under it, so that all members are keys is not asked row by row: it follows from the rest.
-/

namespace DeclGraph.Graph

open DependencyMap

/-- What a violation says about the two maps. -/
def Breaks (graph : Graph) : Violation → Prop
  | .selfUpstream file => file ∈ graph.upstreamOf file
  | .selfDownstream file => file ∈ graph.downstreamOf file
  | .upstreamOnly file dependency => dependency ∈ graph.upstreamOf file ∧ file ∉ graph.downstreamOf dependency
  | .downstreamOnly file dependent => dependent ∈ graph.downstreamOf file ∧ file ∉ graph.upstreamOf dependent
  | .noDownstream file => file ∈ graph.upstream.keys ∧ file ∉ graph.downstream.keys
  | .noUpstream file => file ∈ graph.downstream.keys ∧ file ∉ graph.upstream.keys

instance (graph : Graph) (violation : Violation) : Decidable (graph.Breaks violation) :=
  match violation with
  | .selfUpstream file => inferInstanceAs (Decidable (file ∈ graph.upstreamOf file))
  | .selfDownstream file => inferInstanceAs (Decidable (file ∈ graph.downstreamOf file))
  | .upstreamOnly file dependency =>
    inferInstanceAs (Decidable (dependency ∈ graph.upstreamOf file ∧ file ∉ graph.downstreamOf dependency))
  | .downstreamOnly file dependent =>
    inferInstanceAs (Decidable (dependent ∈ graph.downstreamOf file ∧ file ∉ graph.upstreamOf dependent))
  | .noDownstream file => inferInstanceAs (Decidable (file ∈ graph.upstream.keys ∧ file ∉ graph.downstream.keys))
  | .noUpstream file => inferInstanceAs (Decidable (file ∈ graph.downstream.keys ∧ file ∉ graph.upstream.keys))

section Rows

/-- What is wrong with a row, seen from the map that should be the reverse. -/
def reports (self : String → Violation) (missing : String → String → Violation) (reverse : DependencyMap)
    (row : String × FileSet) : List Violation :=
  (if row.1 ∈ row.2 then [self row.1] else [])
    ++ (row.2.filter fun file => row.1 ∉ reverse.get file).map (missing row.1)

theorem upstreamViolations_eq (graph : Graph) :
    graph.upstreamViolations = reports .selfUpstream .upstreamOnly graph.downstream := rfl

theorem downstreamViolations_eq (graph : Graph) :
    graph.downstreamViolations = reports .selfDownstream .downstreamOnly graph.upstream := rfl

def Violation.file : Violation → String
  | .selfUpstream file | .selfDownstream file | .upstreamOnly file _ | .downstreamOnly file _
  | .noDownstream file | .noUpstream file => file

variable {self : String → Violation} {missing : String → String → Violation} {reverse : DependencyMap}

theorem mem_reports {row : String × FileSet} {violation : Violation} :
    violation ∈ reports self missing reverse row ↔ (row.1 ∈ row.2 ∧ violation = self row.1)
      ∨ ∃ file, (file ∈ row.2 ∧ row.1 ∉ reverse.get file) ∧ violation = missing row.1 file := by
  rw [reports, List.mem_append, List.mem_map]
  apply or_congr
  · by_cases loop : row.1 ∈ row.2 <;> simp [loop]
  · simp only [List.mem_filter, decide_eq_true_eq, eq_comm (a := violation)]

theorem mem_flatMap_reports {map : DependencyMap} (distinct : map.keys.Nodup) {violation : Violation} :
    violation ∈ map.flatMap (reports self missing reverse) ↔
      (∃ file, file ∈ map.get file ∧ violation = self file)
        ∨ ∃ file next, (next ∈ map.get file ∧ file ∉ reverse.get next) ∧ violation = missing file next := by
  simp only [List.mem_flatMap, mem_reports]
  constructor
  · rintro ⟨row, member, ⟨loop, rfl⟩ | ⟨next, ⟨listed, lost⟩, rfl⟩⟩
    · rw [← get_of_mem distinct member] at loop
      exact Or.inl ⟨row.1, loop, rfl⟩
    · rw [← get_of_mem distinct member] at listed
      exact Or.inr ⟨row.1, next, ⟨listed, lost⟩, rfl⟩
  · rintro (⟨file, loop, rfl⟩ | ⟨file, next, ⟨listed, lost⟩, rfl⟩)
    · obtain ⟨row, member, rfl, inRow⟩ := row_of_mem_get loop
      exact ⟨row, member, Or.inl ⟨inRow, rfl⟩⟩
    · obtain ⟨row, member, rfl, inRow⟩ := row_of_mem_get listed
      exact ⟨row, member, Or.inr ⟨next, ⟨inRow, lost⟩, rfl⟩⟩

variable (selfFile : ∀ file, (self file).file = file) (missingFile : ∀ file next, (missing file next).file = file)
  (apart : ∀ file other next, self file ≠ missing other next) (injective : ∀ file, Function.Injective (missing file))

include apart injective in
theorem nodup_reports {row : String × FileSet} (distinct : row.2.Nodup) : (reports self missing reverse row).Nodup := by
  have pairs : ((row.2.filter fun file => row.1 ∉ reverse.get file).map (missing row.1)).Nodup :=
    (distinct.filter _).map (injective row.1)
  rw [reports]
  split
  next =>
    refine List.nodup_cons.mpr ⟨fun member => ?_, pairs⟩
    obtain ⟨next, _, same⟩ := List.mem_map.mp member
    exact apart _ _ _ same.symm
  next => exact pairs

include selfFile missingFile apart injective in
theorem nodup_flatMap_reports {map : DependencyMap} (formed : map.WellFormed) :
    (map.flatMap (reports self missing reverse)).Nodup := by
  have found {row : String × FileSet} {violation : Violation} (member : violation ∈ reports self missing reverse row) :
      violation.file = row.1 := by
    rcases mem_reports.mp member with ⟨_, rfl⟩ | ⟨next, _, rfl⟩
    · exact selfFile row.1
    · exact missingFile row.1 next
  refine List.nodup_flatMap.mpr ⟨fun row member => ?_, ?_⟩
  · exact nodup_reports apart injective (formed.increasing row member).nodup
  · refine (List.pairwise_map.mp formed.distinct).imp fun different violation here there => ?_
    exact different ((found here).symm.trans (found there))

end Rows

section Counting

variable {graph : Graph}

theorem mem_onlyIn (map other : DependencyMap) (file : String) :
    file ∈ onlyIn map other ↔ file ∈ map.keys ∧ file ∉ other.keys := by
  simp [onlyIn, FileSet.mem_ofList]

theorem nodup_onlyIn (map other : DependencyMap) : (onlyIn map other).Nodup :=
  List.Pairwise.imp ne_of_lt (FileSet.increasing_ofList _)

theorem mem_violations (upstreamFormed : graph.upstream.WellFormed) (downstreamFormed : graph.downstream.WellFormed)
    (violation : Violation) : violation ∈ graph.violations ↔ graph.Breaks violation := by
  simp only [violations, upstreamViolations_eq, downstreamViolations_eq, List.mem_append,
    mem_flatMap_reports upstreamFormed.distinct, mem_flatMap_reports downstreamFormed.distinct, List.mem_map, mem_onlyIn]
  cases violation <;> simp [Breaks, upstreamOf, downstreamOf]

theorem nodup_violations (upstreamFormed : graph.upstream.WellFormed)
    (downstreamFormed : graph.downstream.WellFormed) : graph.violations.Nodup := by
  have upstream : (graph.upstream.flatMap graph.upstreamViolations).Nodup := by
    rw [upstreamViolations_eq]
    exact nodup_flatMap_reports (fun _ => rfl) (fun _ _ => rfl) (by simp) (fun _ _ _ same => by simpa using same)
      upstreamFormed
  have downstream : (graph.downstream.flatMap graph.downstreamViolations).Nodup := by
    rw [downstreamViolations_eq]
    exact nodup_flatMap_reports (fun _ => rfl) (fun _ _ => rfl) (by simp) (fun _ _ _ same => by simpa using same)
      downstreamFormed
  have noDownstream : ((onlyIn graph.upstream graph.downstream).map Violation.noDownstream).Nodup :=
    (nodup_onlyIn _ _).map fun _ _ same => by simpa using same
  have noUpstream : ((onlyIn graph.downstream graph.upstream).map Violation.noUpstream).Nodup :=
    (nodup_onlyIn _ _).map fun _ _ same => by simpa using same
  -- The four parts hold reports of different kinds.
  refine List.nodup_append.mpr ⟨List.nodup_append.mpr ⟨List.nodup_append.mpr ⟨upstream, downstream, ?_⟩,
    noDownstream, ?_⟩, noUpstream, ?_⟩
  all_goals
    simp only [upstreamViolations_eq, downstreamViolations_eq, List.mem_append, mem_flatMap_reports upstreamFormed.distinct,
      mem_flatMap_reports downstreamFormed.distinct, List.mem_map]
    intro violation one other another same
    subst same
    cases violation <;> simp at one another

end Counting

section Exactness

/-- Each of the maps is the other's reverse, without loops, over the same files. -/
structure Reversed (graph : Graph) : Prop where
  transposed : ∀ file other, other ∈ graph.upstreamOf file ↔ file ∈ graph.downstreamOf other
  upstreamLoopless : ∀ file, file ∉ graph.upstreamOf file
  downstreamLoopless : ∀ file, file ∉ graph.downstreamOf file
  sameKeys : ∀ file, file ∈ graph.upstream.keys ↔ file ∈ graph.downstream.keys

/-- Whatever two maps a graph is given by: it counts as valid, without any message, exactly when the maps are each other's
reverse without loops and with the same keys. Then the second map is the first one reversed, and every member is a key
of both. In any case each departure is listed once and nothing else is, and each has its message. -/
theorem violations_exact {host : Host} {upstream downstream : Option Entries} {graph : Graph}
    (given : ofEntries host upstream downstream = .ok graph) :
    ((graph.isValid = true ∧ graph.violations.map Violation.message = []) ↔ graph.Reversed)
      ∧ (graph.Reversed → graph.downstream.same graph.upstream.transpose = true
        ∧ ∀ file next, next ∈ graph.upstreamOf file ∨ next ∈ graph.downstreamOf file →
          next ∈ graph.upstream.keys ∧ next ∈ graph.downstream.keys)
      ∧ (¬ graph.Reversed → graph.isValid = false)
      ∧ ∀ violation, graph.violations.count violation = if graph.Breaks violation then 1 else 0 := by
  have formed := formed_ofEntries given
  -- The maps of a given graph are well formed already, so nothing else is missing for it to be coherent.
  have reversed_iff : graph.Reversed ↔ graph.Coherent := by
    constructor
    · intro reversed
      exact ⟨formed.upstreamFormed, formed.downstreamFormed, reversed.transposed, reversed.upstreamLoopless,
        reversed.sameKeys⟩
    · intro coherent
      exact ⟨coherent.reversed, coherent.loopless, coherent.downstream_loopless, coherent.sameKeys⟩
  have valid_iff : graph.isValid = true ↔ graph.Reversed := by
    rw [isValid_iff, violations_eq_nil_iff formed.upstreamFormed formed.downstreamFormed, reversed_iff]
  refine ⟨?_, fun reversed => ⟨?_, ?_⟩, fun broken => ?_, fun violation => ?_⟩
  · rw [List.map_eq_nil_iff, ← isValid_iff, and_self, valid_iff]
  · have coherent := reversed_iff.mp reversed
    refine same_of_same_members formed.downstreamFormed (wellFormed_transpose _) (fun file => ?_) fun file next => ?_
    · rw [mem_keys_transpose, ← coherent.sameKeys]
      constructor
      · intro key
        obtain ⟨row, member, rfl⟩ := List.mem_map.mp key
        exact ⟨row, member, Or.inl rfl⟩
      · exact fun mentioned => coherent.key_of_mentions (Or.inl mentioned)
    · rw [mem_get_transpose formed.upstreamFormed.distinct, coherent.reversed]
  · have coherent := reversed_iff.mp reversed
    rintro file next (member | member)
    · have key := (coherent.key_of_upstream member).2
      exact ⟨key, (coherent.sameKeys next).mp key⟩
    · have key := (coherent.key_of_downstream member).2
      exact ⟨key, (coherent.sameKeys next).mp key⟩
  · rw [← valid_iff] at broken
    exact Bool.eq_false_iff.mpr broken
  · have listed := mem_violations formed.upstreamFormed formed.downstreamFormed violation
    split
    next breaks =>
      exact List.count_eq_one_of_mem (nodup_violations formed.upstreamFormed formed.downstreamFormed) (listed.mpr breaks)
    next kept => exact List.count_eq_zero.mpr fun member => kept (listed.mp member)

def tangled : Graph := ⟨[("/w/a", ["/w/a", "/w/b"])], [("/w/b", []), ("/w/c", ["/w/a"])]⟩

def straight : Graph := ⟨[("/w/a", ["/w/b"]), ("/w/b", [])], [("/w/a", []), ("/w/b", ["/w/a"])]⟩

theorem violations_exact_tangled :
    (ofEntries Saved.sampleHost (some [(.text "a", .list [.text "./b"]), (.text "b", .list [])])
        (some [(.text "a", .list []), (.text "b", .list [.text "a"])]) = .ok straight
      ∧ straight.Reversed ∧ straight.downstream.same straight.upstream.transpose = true)
    ∧ ofEntries Saved.sampleHost (some [(.text "a", .list [.text "b", .text "./a"])])
        (some [(.text "b", .list []), (.text "c", .list [.text "/w/a"])]) = .ok tangled
      ∧ tangled.isValid = false
      ∧ tangled.violations.count (.selfUpstream "/w/a") = 1
      ∧ tangled.violations.count (.upstreamOnly "/w/a" "/w/b") = 1
      ∧ tangled.violations.count (.downstreamOnly "/w/c" "/w/a") = 1
      ∧ tangled.violations.count (.noUpstream "/w/c") = 1
      ∧ tangled.violations.count (.upstreamOnly "/w/b" "/w/a") = 0 := by
  have given : ofEntries Saved.sampleHost (some [(.text "a", .list [.text "b", .text "./a"])])
      (some [(.text "b", .list []), (.text "c", .list [.text "/w/a"])]) = .ok tangled :=
    eq_ok_of_toOption (by decide +kernel)
  have straightGiven : ofEntries Saved.sampleHost (some [(.text "a", .list [.text "./b"]), (.text "b", .list [])])
      (some [(.text "a", .list []), (.text "b", .list [.text "a"])]) = .ok straight :=
    eq_ok_of_toOption (by decide +kernel)
  obtain ⟨accepted, transposes, _, _⟩ := violations_exact straightGiven
  have reversed : straight.Reversed := accepted.mp ⟨by decide, by decide⟩
  obtain ⟨_, _, invalid, count⟩ := violations_exact given
  have broken : ¬ tangled.Reversed := fun reversed => reversed.upstreamLoopless "/w/a" (by decide)
  refine ⟨⟨straightGiven, reversed, (transposes reversed).1⟩, given, invalid broken, ?_, ?_, ?_, ?_, ?_⟩
  · rw [count, if_pos (by decide)]
  · rw [count, if_pos (by decide)]
  · rw [count, if_pos (by decide)]
  · rw [count, if_pos (by decide)]
  · rw [count, if_neg (by decide)]

end Exactness

end DeclGraph.Graph
