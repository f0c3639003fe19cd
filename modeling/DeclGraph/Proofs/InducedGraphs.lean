import Mathlib.Data.List.DropRight
import DeclGraph.Proofs.GraphUnions

/-!
Parts of graphs below roots. The part below a root holds what the graph holds about files below the root and nothing
else, so taking parts commutes with itself and with union. Being below is transitive for roots in any spelling, `/`
and `//` included: of nested roots only the inner one counts.
-/

namespace DeclGraph.Path

section Nesting

theorem stripSlashes_concat (front : List Char) (c : Char) :
    stripSlashes (front ++ [c]) = if c = '/' then stripSlashes front else front ++ [c] := by
  have last := List.rdropWhile_concat (· = '/') front c
  simp only [decide_eq_true_eq] at last
  exact last

theorem stripSlashes_stripSlashes (cs : List Char) : stripSlashes (stripSlashes cs) = stripSlashes cs :=
  List.rdropWhile_idempotent _ cs

/-- A stripped root that a path continues is continued by the path without the slashes at its end. -/
theorem isPrefix_stripSlashes {base cs : List Char} (bare : stripSlashes base = base) (inside : base ++ ['/'] <+: cs) :
    base ++ ['/'] <+: stripSlashes cs ++ ['/'] := by
  induction cs using List.reverseRecOn with
  | nil => simp at inside
  | append_singleton front c ih =>
    rw [stripSlashes_concat]
    split
    next slash =>
      rcases List.prefix_concat_iff.mp inside with whole | earlier
      · have same : stripSlashes front = base := by rw [← List.append_inj_left' whole rfl, bare]
        simp [same]
      · exact ih earlier
    next => exact inside.trans (List.prefix_append _ _)

theorem isBelow_trans {base root path : String} (inside : isBelow base root = true) (below : isBelow root path = true) :
    isBelow base path = true := by
  rw [isBelow, List.isPrefixOf_iff_prefix] at inside below ⊢
  exact (isPrefix_stripSlashes (stripSlashes_stripSlashes _) inside).trans below

end Nesting

end DeclGraph.Path

namespace DeclGraph.Graph

open DependencyMap

section Parts

variable {host : Host} {graph other : Graph} {root : String}

def Fact.files : Fact → List String
  | .upstreamKey file | .downstreamKey file => [file]
  | .upstreamPair file other | .downstreamPair file other => [file, other]

/-- All that a fact is about lies strictly below a root. -/
def Within (host : Host) (root : String) (fact : Fact) : Prop :=
  ∀ file ∈ fact.files, host.isWithin (.text file) (.text root) = .ok true

theorem isWithin_text {path : String} (present : path ≠ "") (rooted : root ≠ "") :
    host.isWithin (.text path) (.text root) = .ok (Path.isBelow (host.canonical root) (host.canonical path)) := by
  have place : host.locateValue (.text path) = .ok (host.canonical path) := Host.locate_eq_ok.mpr ⟨present, rfl⟩
  have base : host.locateValue (.text root) = .ok (host.canonical root) := Host.locate_eq_ok.mpr ⟨rooted, rfl⟩
  rw [Host.isWithin, place, base]
  rfl

theorem holds_below (graph : Graph) (base : String) (fact : Fact) :
    (graph.below base).Holds fact ↔ graph.Holds fact ∧ ∀ file ∈ fact.files, Path.isBelow base file = true := by
  cases fact with
  | upstreamKey file =>
    rw [Fact.files, List.forall_mem_singleton]
    exact mem_keys_restrict graph.upstream _ file
  | downstreamKey file =>
    rw [Fact.files, List.forall_mem_singleton]
    exact mem_keys_restrict graph.downstream _ file
  | upstreamPair file next =>
    rw [Fact.files, List.forall_mem_cons, List.forall_mem_singleton]
    exact mem_get_restrict graph.upstream _ file next
  | downstreamPair file next =>
    rw [Fact.files, List.forall_mem_cons, List.forall_mem_singleton]
    exact mem_get_restrict graph.downstream _ file next

theorem FormedMap.restrict {map : DependencyMap} (whole : FormedMap host map) (keep : String → Bool) :
    FormedMap host (map.restrict keep) := by
  refine ⟨wellFormed_restrict whole.formed keep, fun file key => ?_, fun key file listed => ?_⟩
  · exact whole.keys file ((mem_keys_restrict map keep file).mp key).1
  · exact whole.members key file ((mem_get_restrict map keep key file).mp listed).1

theorem formed_below (formed : Formed host graph) (base : String) : Formed host (graph.below base) := by
  rw [formed_iff_maps] at formed ⊢
  exact ⟨formed.1.restrict _, formed.2.restrict _⟩

theorem locate_of_holds (formed : Formed host graph) {fact : Fact} (holds : graph.Holds fact) {file : String}
    (about : file ∈ fact.files) : host.locate file = .ok file := by
  obtain ⟨upstream, downstream⟩ := formed_iff_maps.mp formed
  cases fact with
  | upstreamKey key =>
    obtain rfl := List.mem_singleton.mp about
    exact upstream.keys file holds
  | downstreamKey key =>
    obtain rfl := List.mem_singleton.mp about
    exact downstream.keys file holds
  | upstreamPair key next =>
    rcases List.mem_cons.mp about with rfl | about
    · exact upstream.keys file (mem_keys_of_mem_get holds)
    · obtain rfl := List.mem_singleton.mp about
      exact upstream.members key file holds
  | downstreamPair key next =>
    rcases List.mem_cons.mp about with rfl | about
    · exact downstream.keys file (mem_keys_of_mem_get holds)
    · obtain rfl := List.mem_singleton.mp about
      exact downstream.members key file holds

theorem filter_text (graph : Graph) (rooted : root ≠ "") :
    filter host graph (.text root) = .ok (graph.below (host.canonical root)) := by
  have base : host.locateValue (.text root) = .ok (host.canonical root) := Host.locate_eq_ok.mpr ⟨rooted, rfl⟩
  rw [filter, if_neg (by simp [Document.isNull])]
  split
  next bare =>
    rw [Bool.and_eq_true, List.isEmpty_iff, List.isEmpty_iff] at bare
    rw [below, bare.1, bare.2]
    rfl
  next =>
    rw [base]
    rfl

theorem holds_part (formed : Formed host graph) (rooted : root ≠ "") (fact : Fact) :
    (graph.below (host.canonical root)).Holds fact ↔ graph.Holds fact ∧ Within host root fact := by
  rw [holds_below]
  apply and_congr_right
  intro holds
  refine forall₂_congr fun file about => ?_
  obtain ⟨present, settled⟩ := Host.locate_eq_ok.mp (locate_of_holds formed holds about)
  rw [isWithin_text present rooted, settled, Except.ok.injEq]

end Parts

section Laws

variable {host : Host}

/-- The part of a graph below a root holds what the graph holds about files below the root, under the same canonical
paths. Parts can be taken in any order and more than once, the part of a union is the union of the parts, and a part
of a part below nested roots is the part below the inner one. -/
theorem filter_induced {graph other : Graph} (formed : Formed host graph) (also : Formed host other)
    {root second : String} (rooted : root ≠ "") (placed : second ≠ "") :
    ∃ part otherPart secondPart whole both back again,
      filter host graph (.text root) = .ok part
        ∧ filter host other (.text root) = .ok otherPart
        ∧ filter host graph (.text second) = .ok secondPart
        ∧ filter host (graph.merge other) (.text root) = .ok whole
        ∧ filter host part (.text second) = .ok both
        ∧ filter host secondPart (.text root) = .ok back
        ∧ filter host part (.text root) = .ok again
        ∧ (∀ fact, part.Holds fact ↔ graph.Holds fact ∧ Within host root fact)
        ∧ ofEntries host (some (entriesOf part.upstream)) (some (entriesOf part.downstream)) = .ok part
        ∧ both.same back = true
        ∧ again.same part = true
        ∧ whole.same (part.merge otherPart) = true
        ∧ (host.isWithin (.text second) (.text root) = .ok true → both.same secondPart = true) := by
  let base := host.canonical root
  let inner := host.canonical second
  have formedPart := formed_below formed base
  have formedSecond := formed_below formed inner
  have formedBoth := formed_below formedPart inner
  -- Well-formed graphs are the same when they hold the same facts, and a part holds those about files below its root.
  refine ⟨graph.below base, other.below base, graph.below inner, (graph.merge other).below base,
    (graph.below base).below inner, (graph.below inner).below base, (graph.below base).below base,
    filter_text _ rooted, filter_text _ rooted, filter_text _ placed, filter_text _ rooted, filter_text _ placed,
    filter_text _ rooted, filter_text _ rooted, holds_part formed rooted, formed_iff_given.mp formedPart, ?_, ?_, ?_, ?_⟩
  · rw [same_iff_holds formedBoth (formed_below formedSecond base)]
    intro fact
    rw [holds_below, holds_below, holds_below, holds_below, and_right_comm]
  · rw [same_iff_holds (formed_below formedPart base) formedPart]
    intro fact
    rw [holds_below, holds_below, and_assoc, and_self]
  · have formedOther := formed_below also base
    rw [same_iff_holds (formed_below (formed_merge formed also) base) (formed_merge formedPart formedOther)]
    intro fact
    rw [holds_below, holds_merge also, holds_merge formedOther, holds_below, holds_below, or_and_right]
  · intro within
    rw [isWithin_text placed rooted, Except.ok.injEq] at within
    rw [same_iff_holds formedBoth formedSecond]
    intro fact
    rw [holds_below, holds_below, holds_below, and_right_comm]
    apply and_iff_left_of_imp
    rintro ⟨_, below⟩ file about
    exact Path.isBelow_trans within (below file about)

/-- Two directories that share the beginning of their names. -/
def siblings : Graph :=
  ⟨[("/w/a/x", ["/w/a/z", "/w/ab/y"]), ("/w/ab/y", [])], [("/w/ab/y", ["/w/a/x"]), ("//w/a/x", [])]⟩

theorem formed_siblings : Formed Saved.sampleHost siblings :=
  formed_iff_given.mpr (eq_ok_of_toOption (by decide +kernel))

theorem filter_induced_siblings :
    ∃ part secondPart both, filter Saved.sampleHost siblings (.text "//") = .ok part
      ∧ filter Saved.sampleHost siblings (.text "a/") = .ok secondPart
      ∧ filter Saved.sampleHost part (.text "a/") = .ok both
      ∧ Saved.sampleHost.isWithin (.text "a/") (.text "//") = .ok true
      ∧ both.same secondPart = true
      ∧ part.Holds (.downstreamKey "//w/a/x") ∧ ¬ secondPart.Holds (.upstreamKey "/w/ab/y") := by
  have nested : Saved.sampleHost.isWithin (.text "a/") (.text "//") = .ok true :=
    eq_ok_of_toOption (by decide +kernel)
  obtain ⟨part, _, secondPart, _, both, _, _, filtered, _, second, _, twice, _, _, holds, _, _, _, _, inner⟩ :=
    filter_induced formed_siblings formed_selfish (show "//" ≠ "" by decide) (show "a/" ≠ "" by decide)
  obtain ⟨_, _, _, _, _, _, _, filteredSecond, _, _, _, _, _, _, holdsSecond, _⟩ :=
    filter_induced formed_siblings formed_selfish (show "a/" ≠ "" by decide) (show "//" ≠ "" by decide)
  cases filteredSecond.symm.trans second
  refine ⟨part, secondPart, both, filtered, second, twice, nested, inner nested, (holds _).mpr ⟨?_, ?_⟩, fun held => ?_⟩
  · simp [Holds, siblings, keys]
  · intro file about
    obtain rfl := List.mem_singleton.mp about
    exact eq_ok_of_toOption (by decide +kernel)
  · have outside := ((holdsSecond _).mp held).2 "/w/ab/y" List.mem_cons_self
    have answer : (Saved.sampleHost.isWithin (.text "/w/ab/y") (.text "a/")).toOption = some false := by decide +kernel
    rw [outside] at answer
    cases answer

end Laws

end DeclGraph.Graph
