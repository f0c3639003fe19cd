import DeclGraph.Graph.Query
import DeclGraph.Proofs.DirectGraphs
import DeclGraph.Proofs.GraphUnions

/-!
The order in which to work through files. A request comes to a set of files, and nothing about the order, the
repetitions or the spellings in it shows in the queue: there is one way to put the contexts of these files in order.
-/

namespace DeclGraph.Graph

open DependencyMap

/-- What is asked for: the files that the spellings stand for, or all files of the graph. -/
def Requested (host : Host) (graph : Graph) (request : Option (List String)) (file : String) : Prop :=
  match request with
  | none => file ∈ graph.upstream.keys ∨ file ∈ graph.downstream.keys
  | some spellings => ∃ spelling ∈ spellings, host.canonical spelling = file

def SpelledRequest (request : Option (List String)) : Prop := ∀ spellings, request = some spellings → "" ∉ spellings

/-- Fewer upstream files come before more, and of two contexts with as many the one whose path is less, character by
character. -/
def Precedes (a b : FileContext) : Prop :=
  a.upstream.length < b.upstream.length ∨ a.upstream.length = b.upstream.length ∧ a.file < b.file

structure Lists (map : DependencyMap) (file : String) (set : FileSet) : Prop where
  increasing : set.Increasing
  members : ∀ other, other ∈ set ↔ ∃ row ∈ map, row.1 = file ∧ other ∈ row.2
  unknown : file ∉ map.keys → set = []

/-- The queue of a request. -/
structure Ranked (host : Host) (graph : Graph) (request : Option (List String)) (entries : List QueuedFile) : Prop where
  /-- Each file once. -/
  distinct : (entries.map (·.context.file)).Nodup
  /-- The files that are asked for, whether the graph knows them or not. -/
  files : ∀ file, file ∈ entries.map (·.context.file) ↔ Requested host graph request file
  positions : entries.map (·.position) = List.range' 1 entries.length
  increasing : entries.Pairwise fun a b => Precedes a.context b.context
  upstream : ∀ entry ∈ entries, Lists graph.upstream entry.context.file entry.context.upstream
  downstream : ∀ entry ∈ entries, Lists graph.downstream entry.context.file entry.context.downstream

section Order

theorem Precedes.trans {a b c : FileContext} (first : Precedes a b) (second : Precedes b c) : Precedes a c := by
  rcases first with fewer | ⟨same, less⟩ <;> rcases second with fewer' | ⟨same', less'⟩
  · exact Or.inl (fewer.trans fewer')
  · exact Or.inl (same' ▸ fewer)
  · exact Or.inl (same ▸ fewer')
  · exact Or.inr ⟨same.trans same', less.trans less'⟩

theorem Precedes.irrefl (a : FileContext) : ¬ Precedes a a := by
  rintro (fewer | ⟨_, less⟩)
  · exact Nat.lt_irrefl _ fewer
  · exact lt_irrefl _ less

theorem queuedBefore_iff {a b : FileContext} :
    queuedBefore a b = true ↔ Precedes a b ∨ a.upstream.length = b.upstream.length ∧ a.file = b.file := by
  rw [queuedBefore, Bool.or_eq_true, Bool.and_eq_true, decide_eq_true_eq, decide_eq_true_eq, decide_eq_true_eq,
    le_iff_lt_or_eq, Precedes]
  tauto

theorem queuedBefore_trans (a b c : FileContext) (first : queuedBefore a b = true) (second : queuedBefore b c = true) :
    queuedBefore a c = true := by
  rw [queuedBefore_iff] at first second ⊢
  rcases first with before | ⟨same, file⟩ <;> rcases second with before' | ⟨same', file'⟩
  · exact Or.inl (before.trans before')
  · left
    rwa [Precedes, ← same', ← file']
  · left
    rwa [Precedes, same, file]
  · exact Or.inr ⟨same.trans same', file.trans file'⟩

theorem queuedBefore_total (a b : FileContext) : (queuedBefore a b || queuedBefore b a) = true := by
  rw [Bool.or_eq_true, queuedBefore_iff, queuedBefore_iff, Precedes, Precedes]
  rcases lt_trichotomy a.upstream.length b.upstream.length with fewer | same | more
  · exact Or.inl (Or.inl (Or.inl fewer))
  · rcases lt_trichotomy a.file b.file with less | equal | greater
    · exact Or.inl (Or.inl (Or.inr ⟨same, less⟩))
    · exact Or.inl (Or.inr ⟨same, equal⟩)
    · exact Or.inr (Or.inl (Or.inr ⟨same.symm, greater⟩))
  · exact Or.inr (Or.inl (Or.inl more))

theorem increasing_mergeSort {contexts : List FileContext} (distinct : (contexts.map (·.file)).Nodup) :
    (contexts.mergeSort queuedBefore).Pairwise Precedes := by
  have sorted : (contexts.mergeSort queuedBefore).Pairwise fun a b => queuedBefore a b = true :=
    List.pairwise_mergeSort queuedBefore_trans queuedBefore_total contexts
  have apart : ((contexts.mergeSort queuedBefore).map (·.file)).Nodup :=
    ((List.mergeSort_perm contexts queuedBefore).map _).nodup_iff.mpr distinct
  refine sorted.imp₂ (fun a b ordered different => ?_) (List.pairwise_map.mp apart)
  rcases queuedBefore_iff.mp ordered with before | ⟨_, same⟩
  · exact before
  · exact absurd same different

theorem eq_of_precedes {contexts others : List FileContext} (ordered : contexts.Pairwise Precedes)
    (alsoOrdered : others.Pairwise Precedes) (permuted : contexts.Perm others) : contexts = others :=
  permuted.eq_of_pairwise (fun a _ _ _ before after => absurd (before.trans after) (Precedes.irrefl a)) ordered
    alsoOrdered

end Order

section Entries

variable {graph : Graph} {files order : List String}

theorem length_queueOf (graph : Graph) (files : FileSet) : (graph.queueOf files).length = files.length := by
  simp [queueOf]

theorem context_of_mem_queueOf {entry : QueuedFile} (member : entry ∈ graph.queueOf files) :
    ∃ file ∈ files, entry.context = graph.contextOf file := by
  obtain ⟨⟨context, index⟩, listed, rfl⟩ := List.mem_map.mp member
  have sorted := List.fst_mem_of_mem_zipIdx listed
  obtain ⟨file, inside, rfl⟩ := List.mem_map.mp (List.mem_mergeSort.mp sorted)
  exact ⟨file, inside, rfl⟩

theorem file_contextOf (graph : Graph) (files : List String) :
    (files.map graph.contextOf).map (·.file) = files := by
  rw [List.map_map]
  exact List.map_id files

theorem contexts_queueOf (graph : Graph) (files : FileSet) :
    (graph.queueOf files).map (·.context) = (files.map graph.contextOf).mergeSort queuedBefore := by
  rw [queueOf, List.map_map]
  exact List.zipIdx_map_fst 0 _

theorem positions_queueOf (graph : Graph) (files : FileSet) :
    (graph.queueOf files).map (·.position) = List.range' 1 (graph.queueOf files).length := by
  have indexed := congrArg (List.map (· + 1)) (List.zipIdx_map_snd 0 ((files.map graph.contextOf).mergeSort queuedBefore))
  have shift : (· + 1 : Nat → Nat) = (1 + ·) := funext fun index => Nat.add_comm index 1
  rw [List.map_map, shift, List.map_add_range', ← shift] at indexed
  rw [queueOf, List.map_map, List.length_map, List.length_zipIdx]
  exact indexed

theorem files_queueOf (graph : Graph) (files : FileSet) :
    ((graph.queueOf files).map (·.context.file)).Perm files := by
  have permuted := (List.mergeSort_perm (files.map graph.contextOf) queuedBefore).map (·.file)
  rw [← contexts_queueOf, file_contextOf, List.map_map] at permuted
  exact permuted

/-- The order in which the files are taken up does not show in the queue. -/
theorem queueOf_of_perm (distinct : files.Nodup) (permuted : order.Perm files) :
    graph.queueOf order = graph.queueOf files := by
  have sorted : (order.map graph.contextOf).mergeSort queuedBefore = (files.map graph.contextOf).mergeSort queuedBefore := by
    apply eq_of_precedes
    · exact increasing_mergeSort (by rw [file_contextOf]; exact permuted.nodup_iff.mpr distinct)
    · exact increasing_mergeSort (by rw [file_contextOf]; exact distinct)
    · exact (List.mergeSort_perm _ _).trans ((permuted.map _).trans (List.mergeSort_perm _ _).symm)
  rw [queueOf, queueOf, sorted]

theorem lists_get {map : DependencyMap} (formed : map.WellFormed) (file : String) : Lists map file (map.get file) where
  increasing := increasing_get formed file
  members := mem_get_iff_row formed.distinct file
  unknown := by
    intro absent
    rw [List.eq_nil_iff_forall_not_mem]
    exact fun other member => absent (mem_keys_of_mem_get member)

end Entries

section Requests

variable {host : Host} {graph : Graph} {request other : Option (List String)}

theorem queue_of_spelled (host : Host) (graph : Graph) (spelled : SpelledRequest request) : ∃ files : FileSet, files.Nodup
    ∧ (∀ file, file ∈ files ↔ Requested host graph request file)
    ∧ graph.queue host (request.map (List.map .text)) = .ok (graph.queueOf files) := by
  cases request with
  | none =>
    refine ⟨graph.files, (FileSet.increasing_ofList _).nodup, fun file => ?_, rfl⟩
    rw [files, FileSet.mem_ofList, List.mem_append, Requested]
  | some spellings =>
    have given := spelled spellings rfl
    have located : (spellings.map Document.text).mapM host.locateValue = .ok (spellings.map host.canonical) := by
      rw [mapM_eq_ok, List.forall₂_map_left_iff, List.forall₂_map_right_iff, List.forall₂_same]
      exact fun spelling member => Host.locate_eq_ok.mpr ⟨fun empty => given (empty ▸ member), rfl⟩
    refine ⟨FileSet.ofList (spellings.map host.canonical), (FileSet.increasing_ofList _).nodup, fun file => ?_, ?_⟩
    · rw [FileSet.mem_ofList, List.mem_map, Requested]
    · exact bind_eq_ok.mpr ⟨_, located, rfl⟩

theorem queue_of_not_spelled (silent : ¬ SpelledRequest request) :
    graph.queue host (request.map (List.map .text)) = .error .emptyPath := by
  cases request with
  | none => exact absurd (fun _ none => by cases none) silent
  | some spellings =>
    have member : "" ∈ spellings := by
      by_contra absent
      exact silent fun given same => Option.some.inj same ▸ absent
    refine bind_eq_error.mpr (Or.inl (mapM_eq_error ?_ ⟨.text "", List.mem_map_of_mem member, rfl⟩))
    intro value listed fault failed
    obtain ⟨spelling, _, rfl⟩ := List.mem_map.mp listed
    exact (locate_eq_error.mp failed).2

theorem ranked_queueOf (formed : Formed host graph) {files : FileSet} (distinct : files.Nodup)
    (asked : ∀ file, file ∈ files ↔ Requested host graph request file) :
    Ranked host graph request (graph.queueOf files) := by
  have context {entry : QueuedFile} (member : entry ∈ graph.queueOf files) :
      entry.context = graph.contextOf entry.context.file := by
    obtain ⟨file, _, same⟩ := context_of_mem_queueOf member
    rw [same]
    rfl
  refine ⟨(files_queueOf graph files).nodup_iff.mpr distinct, fun file => ?_, positions_queueOf graph files, ?_,
    fun entry member => ?_, fun entry member => ?_⟩
  · rw [(files_queueOf graph files).mem_iff, asked]
  · have apart : ((files.map graph.contextOf).map (·.file)).Nodup := by rwa [file_contextOf]
    have sorted := increasing_mergeSort apart
    rw [← contexts_queueOf] at sorted
    exact List.pairwise_map.mp sorted
  · rw [context member]
    exact lists_get formed.upstreamFormed _
  · rw [context member]
    exact lists_get formed.downstreamFormed _

/-- Queueing. What is asked for is queued: each file once, in one strict order, numbered from 1, with what the graph has
for it. Neither the order in which the files are taken up nor the way they are asked for shows in the queue. An empty
spelling is refused. -/
theorem queue_ranks_requested (formed : Formed host graph) (request : Option (List String)) :
    (SpelledRequest request → ∃ entries, graph.queue host (request.map (List.map .text)) = .ok entries
      ∧ Ranked host graph request entries
      ∧ (∀ order : List String, order.Nodup → (∀ file, file ∈ order ↔ Requested host graph request file) →
        graph.queueOf order = entries)
      ∧ ∀ other, SpelledRequest other → (∀ file, Requested host graph other file ↔ Requested host graph request file) →
        graph.queue host (other.map (List.map .text)) = .ok entries)
    ∧ (¬ SpelledRequest request → graph.queue host (request.map (List.map .text)) = .error .emptyPath) := by
  refine ⟨fun spelled => ?_, queue_of_not_spelled⟩
  obtain ⟨files, distinct, asked, answered⟩ := queue_of_spelled host graph spelled
  have taken {order : List String} (once : order.Nodup) (same : ∀ file, file ∈ order ↔ Requested host graph request file) :
      graph.queueOf order = graph.queueOf files := by
    apply queueOf_of_perm distinct
    exact (List.perm_ext_iff_of_nodup once distinct).mpr fun file => (same file).trans (asked file).symm
  refine ⟨_, answered, ranked_queueOf formed distinct asked, fun order once same => taken once same, ?_⟩
  intro other alsoSpelled same
  obtain ⟨others, once, members, given⟩ := queue_of_spelled host graph alsoSpelled
  rw [given, taken once fun file => (members file).trans (same file)]

/-- Three files, one of them in two spellings and one that the graph does not know, in either order. -/
theorem queue_oneWay : ∃ entries,
    oneWay.queue Saved.sampleHost (some [.text "x", .text "./b", .text "a", .text "/w/b"]) = .ok entries
      ∧ entries = [⟨⟨"/w/b", [], []⟩, 1⟩, ⟨⟨"/w/x", [], []⟩, 2⟩, ⟨⟨"/w/a", ["/w/b"], []⟩, 3⟩]
      ∧ Ranked Saved.sampleHost oneWay (some ["x", "./b", "a", "/w/b"]) entries
      ∧ oneWay.queue Saved.sampleHost (some [.text "a", .text "b", .text "x"]) = .ok entries := by
  have spelled : SpelledRequest (some ["x", "./b", "a", "/w/b"]) := by
    rintro _ ⟨⟩
    decide
  have alsoSpelled : SpelledRequest (some ["a", "b", "x"]) := by
    rintro _ ⟨⟩
    decide
  have places : Saved.sampleHost.canonical "x" = "/w/x" ∧ Saved.sampleHost.canonical "./b" = "/w/b"
      ∧ Saved.sampleHost.canonical "a" = "/w/a" ∧ Saved.sampleHost.canonical "/w/b" = "/w/b"
      ∧ Saved.sampleHost.canonical "b" = "/w/b" := by decide +kernel
  obtain ⟨x, dotted, a, rooted, b⟩ := places
  obtain ⟨entries, answered, ranked, taken, alike⟩ := (queue_ranks_requested formed_oneWay _).1 spelled
  refine ⟨entries, answered, ?_, ranked, alike _ alsoSpelled fun file => ?_⟩
  · rw [← taken ["/w/b", "/w/x", "/w/a"] (by decide) fun file => ?_]
    · rw [queueOf, List.mergeSort_of_pairwise (by decide +kernel)]
      rfl
    · simp only [Requested, List.mem_cons, List.not_mem_nil, or_false, exists_eq_or_imp, exists_eq_left, x, dotted, a, rooted]
      tauto
  · simp only [Requested, List.mem_cons, List.not_mem_nil, or_false, exists_eq_or_imp, exists_eq_left, x, dotted, a, rooted, b]
    tauto

end Requests

end DeclGraph.Graph
