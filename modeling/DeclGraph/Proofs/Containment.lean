import DeclGraph.Proofs.CanonicalForms
import DeclGraph.Proofs.WritableGraphs

/-!
Lying below a root. The test compares texts, with the slashes at the end of the root taken off. Below a root that has a
name this is the same as going on from its names. A root without names has everything below it, itself included. A path
below a root that has names is written relative to it, and unless a backslash is lost the relative path leads back.
-/

namespace DeclGraph

namespace Path

variable {place root : Location}

section Below

theorem isBelow_bare (bare : root.names = []) : isBelow root.text place.text = true := by
  have stripped : stripSlashes root.text.toList = [] := by
    rcases root with ⟨doubled, names⟩
    subst bare
    cases doubled <;> rfl
  have rooted := isAbsolute_text place
  rw [isAbsolute, decide_eq_true_eq] at rooted
  obtain ⟨rest, written⟩ := List.head?_eq_some_iff.mp rooted
  simp [isBelow, stripped, written]

theorem isBelow_iff (proper : place.Proper) (rootProper : root.Proper) : isBelow root.text place.text = true
    ↔ root.names = [] ∨ place.doubled = root.doubled ∧ Under root.names place.names := by
  by_cases bare : root.names = []
  · exact iff_of_true (isBelow_bare bare) (Or.inl bare)
  · rw [or_iff_right bare]
    constructor
    · intro below
      obtain ⟨rest, _, reached⟩ := exists_wayDown proper rootProper bare below
      have same : place.doubled = root.doubled := by rw [reached]
      exact ⟨same, (isBelow_text rootProper proper bare same).mp below⟩
    · rintro ⟨same, under⟩
      exact (isBelow_text rootProper proper bare same).mpr under

/-- What the test decides, by the names of two canonical paths. A root without names counts as below itself, and that is
the only path that does. -/
structure Contained (within : Bool) (place root : String) : Prop where
  names : within = true ↔ (root = "/" ∨ root = "//")
    ∨ isDoubled place = isDoubled root ∧ Under (components root) (components place)
  single : isDoubled place = false → isDoubled root = false →
    (within = true ↔ Under (components root) (components place) ∨ place = "/" ∧ root = "/")
  itself : place = root → (within = true ↔ root = "/" ∨ root = "//")

theorem contained_text (proper : place.Proper) (rootProper : root.Proper) :
    Contained (isBelow root.text place.text) place.text root.text := by
  have below := isBelow_iff proper rootProper
  have bare := names_eq_nil_iff rootProper
  refine ⟨?_, fun single also => ?_, fun same => ?_⟩
  · rw [below, bare, isDoubled_text proper, isDoubled_text rootProper, components_text proper, components_text rootProper]
  · rw [isDoubled_text proper] at single
    rw [isDoubled_text rootProper] at also
    rw [below, components_text proper, components_text rootProper, slash_iff proper, slash_iff rootProper, single, also]
    -- Among paths with one slash, only the root itself is below the root without going on from it.
    by_cases named : root.names = [] <;> by_cases further : place.names = [] <;> simp [Under, named, further, eq_comm]
  · rw [below, bare, (text_inj proper rootProper).mp same]
    simp [Under]

end Below

section Ways

theorem mem_intercalate {c : Char} {names : List String} (member : c ∈ ("/".intercalate names).toList) :
    c = '/' ∨ ∃ name ∈ names, c ∈ name.toList := by
  induction names with
  | nil => simp at member
  | cons name rest ih =>
    cases rest with
    | nil => exact Or.inr ⟨name, by simp, by simpa using member⟩
    | cons other others =>
      rw [String.intercalate_cons_cons, String.toList_append, String.toList_append, List.mem_append,
        List.mem_append] at member
      rcases member with (first | slash) | later
      · exact Or.inr ⟨name, by simp, first⟩
      · exact Or.inl (by simpa using slash)
      · rcases ih later with slash | ⟨name, listed, inside⟩
        · exact Or.inl slash
        · exact Or.inr ⟨name, List.mem_cons_of_mem _ listed, inside⟩

theorem relativeTo_plain {root path : String} {rest : List String} (way : WayDown root path rest)
    (plain : ∀ name ∈ rest, '\\' ∉ name.toList) : relativeTo root path = "/".intercalate rest := by
  apply relativeTo_wayDown way
  have dropped : path.toList.drop root.toList.length = '/' :: ("/".intercalate rest).toList := by simp [way.written]
  rw [dropped]
  intro member
  rcases List.mem_cons.mp member with slash | inside
  · cases slash
  · rcases mem_intercalate inside with slash | ⟨name, listed, inside⟩
    · cases slash
    · exact plain name listed inside

end Ways

end Path

namespace Host

open DeclGraph.Path (Contained IsName components)

variable {host : Host} {path root : String}

/-- The test compares the names of the canonical paths: a path lies within a root if its names go on from those of the
root, and nothing lies within itself but a root without names. -/
theorem isWithin_contained (given : path ≠ "") (rooted : root ≠ "") : ∃ place base within, host.locate path = .ok place
    ∧ host.locate root = .ok base ∧ host.isWithin (.text path) (.text root) = .ok within ∧ Contained within place base := by
  refine ⟨_, _, _, locate_eq_ok.mpr ⟨given, rfl⟩, locate_eq_ok.mpr ⟨rooted, rfl⟩, Graph.isWithin_text given rooted, ?_⟩
  rw [canonical_eq, canonical_eq]
  exact Path.contained_text (placeOf_proper host path) (placeOf_proper host root)

/-- A directory whose name begins like that of the root is not within it. -/
theorem isWithin_sibling : Saved.sampleHost.isWithin (.text "../w/ab/") (.text "./a/") = .ok false
    ∧ Contained false "/w/ab" "/w/a" := by
  obtain ⟨place, base, within, located, rooted, decided, contained⟩ :=
    @isWithin_contained Saved.sampleHost "../w/ab/" "./a/" (by decide) (by decide)
  have found : Saved.sampleHost.locate "../w/ab/" = .ok "/w/ab" := eq_ok_of_toOption (by decide +kernel)
  have founded : Saved.sampleHost.locate "./a/" = .ok "/w/a" := eq_ok_of_toOption (by decide +kernel)
  have outside : Saved.sampleHost.isWithin (.text "../w/ab/") (.text "./a/") = .ok false :=
    eq_ok_of_toOption (by decide +kernel)
  obtain rfl : place = "/w/ab" := Except.ok.inj (located.symm.trans found)
  obtain rfl : base = "/w/a" := Except.ok.inj (rooted.symm.trans founded)
  obtain rfl : within = false := Except.ok.inj (decided.symm.trans outside)
  exact ⟨outside, contained⟩

/-- The root of the tree is within itself, though its names do not go on from its names. -/
theorem root_isWithin_itself : Saved.sampleHost.locate "/" = .ok "/" ∧ Path.isDoubled "/" = false
    ∧ Saved.sampleHost.isWithin (.text "/") (.text "/") = .ok true
    ∧ ¬ Path.Under (components "/") (components "/") :=
  ⟨eq_ok_of_toOption (by decide +kernel), by decide +kernel, eq_ok_of_toOption (by decide +kernel), by decide +kernel⟩

/-- A name of a file as seen from a root: a relative path of proper names that leads back to the file. -/
structure Decodes (host : Host) (base place name : String) : Prop where
  present : name ≠ ""
  relative : Path.isAbsolute name = false
  proper : ∀ segment ∈ Path.segments name, IsName segment
  leads : host.locate (Path.joinAll base (Path.segments name)) = .ok place

theorem decodes_relativeTo {place root : Path.Location} (proper : place.Proper) (rootProper : root.Proper)
    (single : root.text ≠ "/") (double : root.text ≠ "//") (below : Path.isBelow root.text place.text = true)
    (plain : ∀ name ∈ (components place.text).drop (components root.text).length, '\\' ∉ name.toList)
    (fixed : host.locate place.text = .ok place.text) :
    Decodes host root.text place.text (Path.relativeTo root.text place.text) := by
  have named := mt (Path.names_eq_nil_iff rootProper).mp (not_or.mpr ⟨single, double⟩)
  obtain ⟨rest, way, reached⟩ := Path.exists_wayDown proper rootProper named below
  have left : (components place.text).drop (components root.text).length = rest := by
    rw [Path.components_text proper, Path.components_text rootProper, reached, List.drop_left]
  rw [left] at plain
  obtain ⟨present, relative⟩ := Path.wayDown_isRelative way
  rw [Path.relativeTo_plain way plain]
  refine ⟨present, relative, ?_, ?_⟩
  · rw [Path.segments_wayDown way]
    exact way.proper
  · rw [Path.segments_wayDown way, way.joined, fixed]

/-- The name of a path within a root that has names leads back to the path, unless a backslash stands in it; for a path
that is not within the root there is no name. -/
theorem relativeValue_decodes (given : path ≠ "") (rooted : root ≠ "") : ∃ place base, host.locate path = .ok place
    ∧ host.locate root = .ok base
    ∧ (host.isWithin (.text path) (.text root) = .ok true → base ≠ "/" → base ≠ "//" →
        (∀ name ∈ (components place).drop (components base).length, '\\' ∉ name.toList) →
        ∃ name, host.relativeValue (.text path) (.text root) = .ok name ∧ Decodes host base place name)
    ∧ (host.isWithin (.text path) (.text root) = .ok false →
        host.relativeValue (.text path) (.text root) = .error (.outsideRoot path root)
          ∧ (Fault.outsideRoot path root).kind = .wrongValue) := by
  have located : host.locate path = .ok (host.canonical path) := locate_eq_ok.mpr ⟨given, rfl⟩
  have based : host.locate root = .ok (host.canonical root) := locate_eq_ok.mpr ⟨rooted, rfl⟩
  refine ⟨_, _, located, based, fun within single double plain => ?_, fun outside => ?_⟩
  · rw [Graph.isWithin_text given rooted, Except.ok.injEq] at within
    refine ⟨_, Saved.relativeValue_below based located within, ?_⟩
    have fixed := (canonicalForm_canonical host path).fixed host rfl
    rw [canonical_eq host path] at within plain fixed ⊢
    rw [canonical_eq host root] at within plain single double ⊢
    exact decodes_relativeTo (placeOf_proper host path) (placeOf_proper host root) single double within plain fixed
  · exact ⟨Saved.relativeValue_of_escapes outside, rfl⟩

/-- A path with detours, seen from a root that is written with a slash at its end. -/
theorem relativeValue_decodes_detour : ∃ name,
    Saved.sampleHost.relativeValue (.text "a/x/../b//c") (.text "../w/a/") = .ok name
      ∧ Decodes Saved.sampleHost "/w/a" "/w/a/b/c" name := by
  obtain ⟨place, base, located, based, decoded, _⟩ :=
    @relativeValue_decodes Saved.sampleHost "a/x/../b//c" "../w/a/" (by decide) (by decide)
  have found : Saved.sampleHost.locate "a/x/../b//c" = .ok "/w/a/b/c" := eq_ok_of_toOption (by decide +kernel)
  have founded : Saved.sampleHost.locate "../w/a/" = .ok "/w/a" := eq_ok_of_toOption (by decide +kernel)
  obtain rfl : place = "/w/a/b/c" := Except.ok.inj (located.symm.trans found)
  obtain rfl : base = "/w/a" := Except.ok.inj (based.symm.trans founded)
  exact decoded (eq_ok_of_toOption (by decide +kernel)) (by decide) (by decide) (by decide +kernel)

end Host

end DeclGraph
