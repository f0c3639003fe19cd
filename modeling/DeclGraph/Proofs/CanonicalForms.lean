import Mathlib.Logic.Relation
import DeclGraph.Proofs.NamedFiles

/-!
The canonical form of a path, as something that can be checked on the text. Seen from the working directory, a path is a
root and a list of segments. Empty segments and dots can be left out, and so can a name with the step back up from it; in
whatever order that is done, the same names are left in the end. These names, spelled as the host spells them, are what
stands between the slashes of the canonical path. So two spellings share it exactly if they leave the same.
-/

namespace DeclGraph

namespace Path

variable {path : String} {segments names less : List String}

/-- What stands between the slashes of a path after those that lead it. -/
def components (path : String) : List String :=
  match path.toList.dropWhile (· = '/') with
  | [] => []
  | below => (pieces '/' below).map String.ofList

/-- One segment is left out, or a name with the step back up from it. The root is its own parent. -/
inductive Cancels : List String → List String → Prop
  | empty (above below : List String) : Cancels (above ++ "" :: below) (above ++ below)
  | here (above below : List String) : Cancels (above ++ "." :: below) (above ++ below)
  | back {name : String} (proper : IsName name) (above below : List String) :
      Cancels (above ++ name :: ".." :: below) (above ++ below)
  | top (below : List String) : Cancels (".." :: below) below

/-- The names are what is left of the segments, and nothing more can be left out. -/
def Leaves (segments names : List String) : Prop :=
  Relation.ReflTransGen Cancels segments names ∧ ∀ less, ¬ Cancels names less

section Cancelling

theorem follow_cancels (cancels : Cancels segments less) : follow segments = follow less := by
  cases cancels with
  | empty above below => simp [follow, step]
  | here above below => simp [follow, step_here]
  | back proper above below =>
    rw [follow, List.foldl_append, List.foldl_cons, List.foldl_cons, step_name proper, step_up, List.dropLast_concat,
      follow, List.foldl_append]
  | top below => simp [follow, step_up]

theorem mem_of_cancels (cancels : Cancels segments less) : ∀ name ∈ less, name ∈ segments := by
  cases cancels with
  | empty | here | back => grind
  | top below => exact fun name member => List.mem_cons_of_mem _ member

theorem follow_cancelled (cancelled : Relation.ReflTransGen Cancels segments names) :
    follow segments = follow names ∧ ∀ name ∈ names, name ∈ segments := by
  induction cancelled with
  | refl => exact ⟨rfl, fun _ member => member⟩
  | tail _ cancels ih =>
    exact ⟨ih.1.trans (follow_cancels cancels), fun name member => ih.2 name (mem_of_cancels cancels name member)⟩

theorem cancels_step (segment : String) (plain : '/' ∉ segment.toList) (proper : ∀ name ∈ names, IsName name)
    (rest : List String) : Relation.ReflTransGen Cancels (names ++ segment :: rest) (step names segment ++ rest) := by
  by_cases present : segment = ""
  · rw [step, if_pos (Or.inl present), present]
    exact .single (.empty names rest)
  · rcases IsSegment.cases ⟨present, plain⟩ with rfl | rfl | named
    · rw [step_here]
      exact .single (.here names rest)
    · rw [step_up]
      rcases List.eq_nil_or_concat names with bare | ⟨above, name, rfl⟩
      · rw [bare]
        exact .single (.top rest)
      · rw [List.concat_eq_append, List.dropLast_concat, List.append_assoc, List.singleton_append]
        exact .single (.back (proper name (by simp)) above rest)
    · rw [step_name named, List.append_assoc, List.singleton_append]

theorem cancels_foldl (plain : ∀ segment ∈ segments, '/' ∉ segment.toList) (proper : ∀ name ∈ names, IsName name) :
    Relation.ReflTransGen Cancels (names ++ segments) (segments.foldl step names) := by
  induction segments generalizing names with
  | nil => rw [List.append_nil, List.foldl_nil]
  | cons segment rest ih =>
    have first := plain segment List.mem_cons_self
    refine (cancels_step segment first proper rest).trans (ih ?_ (step_proper names segment first proper))
    exact fun other member => plain other (List.mem_cons_of_mem segment member)

theorem cancels_follow (plain : ∀ segment ∈ segments, '/' ∉ segment.toList) :
    Relation.ReflTransGen Cancels segments (follow segments) := by
  exact @cancels_foldl segments [] plain (by simp)

theorem not_cancels (proper : ∀ name ∈ names, IsName name) (less : List String) : ¬ Cancels names less := by
  intro cancels
  cases cancels with
  | empty above below => exact (proper "" (by simp)).present rfl
  | here above below => exact (proper "." (by simp)).notHere rfl
  | back _ above below => exact (proper ".." (by simp)).notUp rfl
  | top below => exact (proper ".." (by simp)).notUp rfl

/-- Whatever is cancelled first, what is left in the end is where the segments lead from the root. -/
theorem leaves_iff (plain : ∀ segment ∈ segments, '/' ∉ segment.toList) :
    Leaves segments names ↔ follow segments = names := by
  constructor
  · rintro ⟨cancelled, ended⟩
    obtain ⟨same, within⟩ := follow_cancelled cancelled
    have onward := cancels_follow fun name member => plain name (within name member)
    rcases Relation.ReflTransGen.cases_head onward with still | ⟨less, cancels, _⟩
    · rw [same, ← still]
    · exact absurd cancels (ended less)
  · rintro rfl
    exact ⟨cancels_follow plain, not_cancels (foldl_step_proper segments [] plain (by simp))⟩

theorem leaves_segments : Leaves (Path.segments path) names ↔ follow (Path.segments path) = names :=
  leaves_iff fun _ member => no_slash_of_mem_segments member

end Cancelling

section Texts

theorem components_text {place : Location} (proper : place.Proper) : components place.text = place.names := by
  by_cases bare : place.names = []
  · rcases place with ⟨doubled, names⟩
    subst bare
    cases doubled <;> rfl
  · have below := intercalate_isRelative bare proper
    have first : ("/".intercalate place.names).toList.dropWhile (· = '/') = ("/".intercalate place.names).toList := by
      have relative := isAbsolute_eq_false.mp below.2
      cases spelled : ("/".intercalate place.names).toList with
      | nil => rfl
      | cons c rest => simpa [spelled] using relative
    have stripped : place.text.toList.dropWhile (· = '/') = ("/".intercalate place.names).toList := by
      rw [Location.text, String.toList_append]
      cases place.doubled <;> simpa using first
    have present : ("/".intercalate place.names).toList ≠ [] := fun none => below.1 (String.toList_injective none)
    have split := segments_intercalate place.names (fun name member => (proper name member).noSlash) bare
    rw [components, stripped]
    split
    · next none => exact absurd none present
    · exact split

/-- A path as canonical paths are written: a root of one slash or two, and proper names with one slash between them. -/
structure IsClean (path : String) : Prop where
  rooted : isAbsolute path = true
  proper : ∀ name ∈ components path, IsName name
  ended : endsInSlash path = true → path = "/" ∨ path = "//"
  written : path = (if isDoubled path then "//" else "/") ++ "/".intercalate (components path)

theorem isClean_text {place : Location} (proper : place.Proper) : IsClean place.text where
  rooted := isAbsolute_text place
  proper := by
    rw [components_text proper]
    exact proper
  ended := by
    intro ends
    by_cases bare : place.names = []
    · rcases place with ⟨doubled, names⟩
      subst bare
      cases doubled
      · exact Or.inl rfl
      · exact Or.inr rfl
    · rw [endsInSlash_text proper bare] at ends
      cases ends
  written := by rw [components_text proper, isDoubled_text proper, Location.text]

end Texts

end Path

namespace Host

open DeclGraph.Path (Leaves IsClean)

variable {host other : Host} {path spelling place : String}

theorem placeOf_eq (host : Host) (path : String) : host.placeOf path = ⟨Path.isDoubled (Path.absolute host.cwd path),
    (Path.follow (Path.segments (Path.absolute host.cwd path))).map host.spelled⟩ := by
  rw [placeOf_spelled, ← Path.Location.ofText_joinTo, ← Path.absolute, Path.Location.ofText]

/-- What a canonical path keeps of the path that it was made from, and that it stays as it is. -/
structure CanonicalForm (host : Host) (path place : String) : Prop where
  clean : IsClean place
  doubled : Path.isDoubled place = Path.isDoubled (Path.absolute host.cwd path)
  components : ∃ names, Leaves (Path.segments (Path.absolute host.cwd path)) names
    ∧ Path.components place = names.map host.spelled
  fixed : ∀ other : Host, other.foldsCase = host.foldsCase → other.locate place = .ok place

/-- Two paths, each seen from a working directory of its own, lead from the same kind of root to names that are spelled
the same. -/
def LeadAlike (host : Host) (path : String) (other : Host) (spelling : String) : Prop :=
  Path.isDoubled (Path.absolute host.cwd path) = Path.isDoubled (Path.absolute other.cwd spelling)
    ∧ ∃ names others, Leaves (Path.segments (Path.absolute host.cwd path)) names
      ∧ Leaves (Path.segments (Path.absolute other.cwd spelling)) others
      ∧ names.map host.spelled = others.map other.spelled

theorem leadAlike_iff : LeadAlike host path other spelling ↔ host.canonical path = other.canonical spelling := by
  rw [canonical_eq, canonical_eq]
  constructor
  · rintro ⟨root, names, others, left, right, same⟩
    rw [Path.leaves_segments] at left right
    rw [placeOf_eq, placeOf_eq, left, right, root, same]
  · intro same
    have placed := (Path.text_inj (placeOf_proper host path) (placeOf_proper other spelling)).mp same
    rw [placeOf_eq, placeOf_eq, Path.Location.mk.injEq] at placed
    exact ⟨placed.1, _, _, Path.leaves_segments.mpr rfl, Path.leaves_segments.mpr rfl, placed.2⟩

theorem canonicalForm_canonical (host : Host) (path : String) : CanonicalForm host path (host.canonical path) := by
  have proper := placeOf_proper host path
  have clean := Path.isClean_text proper
  rw [← canonical_eq] at clean
  refine ⟨clean, ?_, ⟨_, Path.leaves_segments.mpr rfl, ?_⟩, fun other same => ?_⟩
  · rw [canonical_eq, Path.isDoubled_text proper, placeOf_eq]
  · rw [canonical_eq, Path.components_text proper, placeOf_eq]
  · refine locate_eq_ok.mpr ⟨?_, canonical_canonical other host same path⟩
    intro none
    have rooted := clean.rooted
    rw [none] at rooted
    cases rooted

/-- Every path that is not empty has a canonical form, and shares it, from any working directory, with exactly those paths
that lead from the same kind of root to the same names. -/
theorem locate_canonicalForm (given : path ≠ "") : ∃ place, host.locate path = .ok place ∧ CanonicalForm host path place
    ∧ ∀ (other : Host) (spelling : String), spelling ≠ "" →
      (other.locate spelling = .ok place ↔ LeadAlike host path other spelling) := by
  refine ⟨_, locate_eq_ok.mpr ⟨given, rfl⟩, canonicalForm_canonical host path, fun other spelling present => ?_⟩
  rw [locate_eq_ok, leadAlike_iff]
  exact ⟨fun located => located.2.symm, fun same => ⟨present, same.symm⟩⟩

/-- Two slashes, a detour and capitals, where letter case makes no difference. -/
theorem locate_detour : ToolServer.foldingHost.locate "//X/./a//../B/" = .ok "//x/b"
    ∧ CanonicalForm ToolServer.foldingHost "//X/./a//../B/" "//x/b"
    ∧ ∀ (other : Host) (spelling : String), spelling ≠ "" →
      (other.locate spelling = .ok "//x/b" ↔ LeadAlike ToolServer.foldingHost "//X/./a//../B/" other spelling) := by
  obtain ⟨place, located, form, shared⟩ :=
    @locate_canonicalForm ToolServer.foldingHost "//X/./a//../B/" (by decide)
  have found : ToolServer.foldingHost.locate "//X/./a//../B/" = .ok "//x/b" := eq_ok_of_toOption (by decide +kernel)
  obtain rfl : place = "//x/b" := Except.ok.inj (located.symm.trans found)
  exact ⟨found, form, shared⟩

end Host

end DeclGraph
