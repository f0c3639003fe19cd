import Mathlib
import DeclGraph.Graph.Query
import DeclGraph.Proofs.GraphUnions

/-!
Counts over a graph whose maps keep in step. Each dependency is counted once, in whichever of the maps: so the sum over
what files depend on is the sum over what depends on files. The most connected files are put in order before the list is
cut, and files that nothing depends on come last in this order, so leaving them out after the cut takes no place from
another.
-/

namespace DeclGraph.Graph

open DependencyMap

def Dependents (graph : Graph) (file : String) : Set String := {other | file ∈ graph.upstreamOf other}

def Needed (graph : Graph) : Set String := {file | ∃ other, file ∈ graph.upstreamOf other}

/-- More dependents come before fewer, and of two files with as many the one whose path is less. -/
def Outranks (a b : String × Nat) : Prop := b.2 < a.2 ∨ a.2 = b.2 ∧ a.1 < b.1

/-- What a summary says about a graph. Every number in it counts files or dependencies of the first map. -/
structure Summarizes (summary : GraphSummary) (graph : Graph) : Prop where
  files : summary.totalFiles = {file | file ∈ graph.upstream.keys}.ncard
  dependencies : summary.totalEdges = {pair : String × String | pair.2 ∈ graph.upstreamOf pair.1}.ncard
  /-- The dependencies of a graph are as many when they are counted file by file in the second map. -/
  dependents : summary.totalEdges = (graph.downstream.map fun row => row.2.length).sum
  isolated : summary.isolatedFiles = {file | file ∈ graph.upstream.keys
    ∧ ∀ other, other ∉ graph.upstreamOf file ∧ file ∉ graph.upstreamOf other}.ncard
  length : summary.mostConnected.length = min 10 graph.Needed.ncard
  ordered : summary.mostConnected.Pairwise Outranks
  counts : ∀ row ∈ summary.mostConnected, row.1 ∈ graph.Needed ∧ row.2 = (graph.Dependents row.1).ncard
  /-- Whoever is left out comes after all who are listed. -/
  others : ∀ file ∈ graph.Needed, file ∉ summary.mostConnected.map (·.1) →
    ∀ row ∈ summary.mostConnected, Outranks row (file, (graph.Dependents file).ncard)

section Counting

variable {α : Type}

theorem ncard_eq_length {members : Set α} {list : List α} (distinct : list.Nodup)
    (listed : ∀ value, value ∈ list ↔ value ∈ members) : members.ncard = list.length := by
  classical
  have same : (list.toFinset : Set α) = members := by
    ext value
    rw [List.coe_toFinset, Set.mem_ofPred_eq, listed]
  rw [← same, Set.ncard_coe_finset, List.toFinset_card_of_nodup distinct]

def pairsOf (map : DependencyMap) : List (String × String) := map.flatMap fun row => row.2.map fun file => (row.1, file)

theorem mem_pairsOf {map : DependencyMap} (distinct : map.keys.Nodup) (pair : String × String) :
    pair ∈ pairsOf map ↔ pair.2 ∈ map.get pair.1 := by
  rw [mem_get_iff_row distinct, pairsOf, List.mem_flatMap]
  constructor
  · rintro ⟨row, member, listed⟩
    obtain ⟨file, inside, rfl⟩ := List.mem_map.mp listed
    exact ⟨row, member, rfl, inside⟩
  · rintro ⟨row, member, named, inside⟩
    exact ⟨row, member, List.mem_map.mpr ⟨pair.2, inside, by rw [named]⟩⟩

theorem nodup_pairsOf {map : DependencyMap} (formed : map.WellFormed) : (pairsOf map).Nodup := by
  refine List.nodup_flatMap.mpr ⟨fun row member => ?_, ?_⟩
  · exact (formed.increasing row member).nodup.map fun _ _ same => (Prod.mk.inj same).2
  · refine (List.pairwise_map.mp formed.distinct).imp fun different pair here there => ?_
    obtain ⟨_, _, rfl⟩ := List.mem_map.mp here
    obtain ⟨_, _, same⟩ := List.mem_map.mp there
    exact different (Prod.mk.inj same).1.symm

theorem length_pairsOf (map : DependencyMap) : (pairsOf map).length = (map.map fun row => row.2.length).sum := by
  rw [pairsOf, List.length_flatMap]
  simp only [List.length_map]

theorem pairCount_eq (map : DependencyMap) : map.pairCount = (map.map fun row => row.2.length).sum := by
  rw [pairCount, List.sum_eq_foldl, List.foldl_map]

theorem length_pairsOf_reversed {graph : Graph} (coherent : graph.Coherent) :
    (pairsOf graph.upstream).length = (pairsOf graph.downstream).length := by
  have turned : ((pairsOf graph.downstream).map Prod.swap).Perm (pairsOf graph.upstream) := by
    refine (List.perm_ext_iff_of_nodup ?_ (nodup_pairsOf coherent.upstreamFormed)).mpr fun pair => ?_
    · exact (nodup_pairsOf coherent.downstreamFormed).map Prod.swap_injective
    · rw [mem_pairsOf coherent.upstreamFormed.distinct, coherent.reversed, List.mem_map]
      constructor
      · rintro ⟨other, listed, rfl⟩
        exact (mem_pairsOf coherent.downstreamFormed.distinct other).mp listed
      · exact fun listed => ⟨pair.swap, (mem_pairsOf coherent.downstreamFormed.distinct _).mpr listed, Prod.swap_swap pair⟩
  rw [← turned.length_eq, List.length_map]

end Counting

section Ranking

def rank (row : String × Nat) : ℕᵒᵈ ×ₗ String := toLex (OrderDual.toDual row.2, row.1)

theorem outranks_iff {a b : String × Nat} : Outranks a b ↔ rank a < rank b := by
  rw [rank, rank, Prod.Lex.toLex_lt_toLex, OrderDual.toDual_lt_toDual, OrderDual.toDual_inj]
  rfl

theorem moreConnected_iff {a b : String × Nat} : moreConnected a b = true ↔ rank a ≤ rank b := by
  rw [rank, rank, Prod.Lex.toLex_le_toLex, OrderDual.toDual_lt_toDual, OrderDual.toDual_inj, moreConnected,
    Bool.or_eq_true, Bool.and_eq_true, decide_eq_true_eq, decide_eq_true_eq, decide_eq_true_eq]

theorem rank_injective : Function.Injective rank := by
  intro a b same
  have parts := Prod.mk.inj (toLex_inj.mp same)
  exact Prod.ext parts.2 (OrderDual.toDual_inj.mp parts.1)

theorem outranks_mergeSort {counts : List (String × Nat)} (distinct : (counts.map (·.1)).Nodup) :
    (counts.mergeSort moreConnected).Pairwise Outranks := by
  have sorted : (counts.mergeSort moreConnected).Pairwise fun a b => moreConnected a b = true := by
    refine List.pairwise_mergeSort (fun a b c first second => ?_) (fun a b => ?_) counts
    · exact moreConnected_iff.mpr ((moreConnected_iff.mp first).trans (moreConnected_iff.mp second))
    · rw [Bool.or_eq_true, moreConnected_iff, moreConnected_iff]
      exact le_total (rank a) (rank b)
  have apart : (counts.mergeSort moreConnected).Nodup :=
    (List.mergeSort_perm counts moreConnected).nodup_iff.mpr (distinct.of_map _)
  refine sorted.imp₂ (fun a b ordered different => ?_) apart
  exact outranks_iff.mpr (lt_of_le_of_ne (moreConnected_iff.mp ordered) (rank_injective.ne different))

variable {α : Type} {before : α → α → Prop} {keep : α → Bool}

/-- Where those to be kept come first, keeping them is cutting the list after the last of them. -/
theorem filter_eq_takeWhile {list : List α} (ordered : list.Pairwise before)
    (first : ∀ a b, before a b → keep b = true → keep a = true) : list.filter keep = list.takeWhile keep := by
  induction list with
  | nil => rfl
  | cons value rest ih =>
    have tail := ih (List.pairwise_cons.mp ordered).2
    by_cases kept : keep value = true
    · rw [List.filter_cons_of_pos kept, List.takeWhile_cons_of_pos kept, tail]
    · rw [List.filter_cons_of_neg kept, List.takeWhile_cons_of_neg kept, List.filter_eq_nil_iff]
      exact fun other later kept' => kept (first value other ((List.pairwise_cons.mp ordered).1 other later) kept')

theorem filter_take {list : List α} (ordered : list.Pairwise before)
    (first : ∀ a b, before a b → keep b = true → keep a = true) (limit : Nat) :
    (list.take limit).filter keep = (list.filter keep).take limit := by
  rw [filter_eq_takeWhile (ordered.sublist (List.take_sublist limit list)) first, filter_eq_takeWhile ordered first,
    List.take_takeWhile]

/-- Of a list in order, what is cut off comes after all that is left. -/
theorem before_of_cut {list : List α} (ordered : list.Pairwise before) {limit : Nat} {value other : α}
    (left : value ∈ list.take limit) (member : other ∈ list) (cut : other ∉ list.take limit) : before value other := by
  rw [← List.take_append_drop limit list] at ordered member
  rcases List.mem_append.mp member with inside | beyond
  · exact absurd inside cut
  · exact (List.pairwise_append.mp ordered).2.2 value left other beyond

end Ranking

section Summary

variable {host : Host} {graph : Graph}

def dependentCounts (graph : Graph) : List (String × Nat) := graph.downstream.map fun row => (row.1, row.2.length)

/-- The files of a graph on which others depend, with their numbers of dependents, in order. -/
def ranking (graph : Graph) : List (String × Nat) :=
  (graph.dependentCounts.mergeSort moreConnected).filter fun row => row.2 ≠ 0

theorem counts_distinct (coherent : graph.Coherent) : (graph.dependentCounts.map (·.1)).Nodup := by
  rw [dependentCounts, List.map_map]
  exact coherent.downstreamFormed.distinct

theorem ranking_ordered (coherent : graph.Coherent) : graph.ranking.Pairwise Outranks :=
  (outranks_mergeSort (counts_distinct coherent)).filter _

theorem mostConnected_eq (coherent : graph.Coherent) (limit : Nat) :
    graph.mostConnected limit = graph.ranking.take limit := by
  refine filter_take (outranks_mergeSort (counts_distinct coherent)) (fun a b ranks kept => ?_) limit
  simp only [ne_eq, decide_not, Bool.not_eq_true', decide_eq_false_iff_not] at kept ⊢
  rcases ranks with more | ⟨same, _⟩ <;> omega

theorem ncard_dependents (coherent : graph.Coherent) (file : String) :
    (graph.Dependents file).ncard = (graph.downstreamOf file).length :=
  ncard_eq_length (increasing_get coherent.downstreamFormed file).nodup fun other => (coherent.reversed other file).symm

theorem mem_ranking (coherent : graph.Coherent) (row : String × Nat) :
    row ∈ graph.ranking ↔ row.1 ∈ graph.Needed ∧ row.2 = (graph.Dependents row.1).ncard := by
  have needed : row.1 ∈ graph.Needed ↔ (graph.downstreamOf row.1).length ≠ 0 := by
    rw [Ne, List.length_eq_zero_iff, List.eq_nil_iff_forall_not_mem, not_forall_not]
    exact exists_congr fun other => coherent.reversed other row.1
  rw [ncard_dependents coherent, needed, ranking, List.mem_filter, List.mem_mergeSort, dependentCounts, List.mem_map, decide_eq_true_eq]
  constructor
  · rintro ⟨⟨entry, member, rfl⟩, some⟩
    have found : graph.downstreamOf entry.1 = entry.2 := get_of_mem coherent.downstreamFormed.distinct member
    rw [found]
    exact ⟨some, rfl⟩
  · rintro ⟨some, counted⟩
    refine ⟨?_, counted ▸ some⟩
    obtain ⟨other, listed⟩ := List.exists_mem_of_length_pos (Nat.pos_of_ne_zero some)
    obtain ⟨entry, member, named, _⟩ := row_of_mem_get listed
    refine ⟨entry, member, Prod.ext named ?_⟩
    rw [counted, ← named]
    exact congrArg List.length (get_of_mem coherent.downstreamFormed.distinct member).symm

theorem length_ranking (coherent : graph.Coherent) : graph.Needed.ncard = graph.ranking.length := by
  rw [← @List.length_map _ _ graph.ranking (·.1)]
  apply ncard_eq_length
  · refine List.Nodup.sublist (List.filter_sublist.map _) ?_
    exact ((List.mergeSort_perm _ moreConnected).map _).nodup_iff.mpr (counts_distinct coherent)
  · intro file
    rw [List.mem_map]
    constructor
    · rintro ⟨row, ranked, rfl⟩
      exact ((mem_ranking coherent row).mp ranked).1
    · exact fun needed => ⟨(file, (graph.Dependents file).ncard), (mem_ranking coherent _).mpr ⟨needed, rfl⟩, rfl⟩

theorem isIsolated_iff (coherent : graph.Coherent) (file : String) :
    graph.isIsolated file = true ↔ ∀ other, other ∉ graph.upstreamOf file ∧ file ∉ graph.upstreamOf other := by
  rw [isIsolated, Bool.and_eq_true, List.isEmpty_iff, List.isEmpty_iff, List.eq_nil_iff_forall_not_mem,
    List.eq_nil_iff_forall_not_mem, forall_and]
  exact and_congr_right fun _ => forall_congr' fun other => not_congr (coherent.reversed other file).symm

/-- The summary of a valid graph. Its numbers are those of the files and of the dependencies, in whichever map these are
counted; the list of the most connected files is in strict order, gives each with the number of its dependents, and
leaves out none who would come before a listed one. -/
theorem summary_counts (formed : Formed host graph) (valid : graph.isValid = true) : Summarizes graph.summary graph := by
  have coherent : graph.Coherent :=
    (violations_eq_nil_iff formed.upstreamFormed formed.downstreamFormed).mp ((isValid_iff graph).mp valid)
  have distinct : graph.files.Nodup := (FileSet.increasing_ofList _).nodup
  have edges : graph.edgeCount = (pairsOf graph.upstream).length := by rw [edgeCount, pairCount_eq, length_pairsOf]
  have listed : graph.summary.mostConnected = graph.ranking.take 10 := mostConnected_eq coherent 10
  refine ⟨?_, ?_, ?_, ?_, ?_, ?_, ?_, ?_⟩
  · exact (ncard_eq_length distinct coherent.mem_files).symm
  · exact edges.trans (ncard_eq_length (nodup_pairsOf coherent.upstreamFormed)
      (mem_pairsOf coherent.upstreamFormed.distinct)).symm
  · exact edges.trans ((length_pairsOf_reversed coherent).trans (length_pairsOf graph.downstream))
  · refine (ncard_eq_length (distinct.filter _) fun file => ?_).symm
    rw [List.mem_filter, coherent.mem_files, isIsolated_iff coherent]
    rfl
  · rw [listed, List.length_take, length_ranking coherent]
  · rw [listed]
    exact (ranking_ordered coherent).sublist (List.take_sublist 10 graph.ranking)
  · intro row member
    rw [listed] at member
    exact (mem_ranking coherent row).mp (List.mem_of_mem_take member)
  · intro file needed absent row member
    rw [listed] at absent member
    have ranked := (mem_ranking coherent (file, (graph.Dependents file).ncard)).mpr ⟨needed, rfl⟩
    exact before_of_cut (ranking_ordered coherent) member ranked fun cut => absent (List.mem_map_of_mem cut)

def fourFiles : Graph :=
  ⟨[("/w/a", ["/w/b", "/w/c"]), ("/w/b", []), ("/w/c", ["/w/b"]), ("/w/d", [])],
    [("/w/a", []), ("/w/b", ["/w/a", "/w/c"]), ("/w/c", ["/w/a"]), ("/w/d", [])]⟩

theorem summary_counts_fourFiles : Formed Saved.sampleHost fourFiles ∧ fourFiles.isValid = true
    ∧ Summarizes fourFiles.summary fourFiles ∧ fourFiles.summary = ⟨4, 3, 1, [("/w/b", 2), ("/w/c", 1)]⟩ := by
  have formed : Formed Saved.sampleHost fourFiles := formed_iff_given.mpr (eq_ok_of_toOption (by decide +kernel))
  have valid : fourFiles.isValid = true := by decide +kernel
  exact ⟨formed, valid, summary_counts formed valid, by cbv⟩

end Summary

end DeclGraph.Graph
