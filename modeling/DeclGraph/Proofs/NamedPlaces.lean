import DeclGraph.Proofs.JoinedPaths

/-!
Places by their names. A canonical path names one place, and lies below another exactly when its names go on from the
names of the other. The place of a path on a host is where it leads from the working directory, each name spelled as the
host spells it.
-/

namespace DeclGraph

namespace Path

section Names

variable {names spot : List String} {segment : String}

/-- A place strictly below another, by their names. -/
def Under (names spot : List String) : Prop := names <+: spot ∧ names ≠ spot

instance (names spot : List String) : Decidable (Under names spot) := inferInstanceAs (Decidable (_ ∧ _))

theorem under_append : Under names spot ↔ ∃ rest, rest ≠ [] ∧ spot = names ++ rest := by
  constructor
  · rintro ⟨⟨rest, rfl⟩, differs⟩
    exact ⟨rest, fun none => differs (by rw [none, List.append_nil]), rfl⟩
  · rintro ⟨rest, present, rfl⟩
    exact ⟨List.prefix_append names rest, fun same => present (List.self_eq_append_right.mp same)⟩

theorem under_concat {name : String} : Under names (spot ++ [name]) ↔ names <+: spot := by
  rw [Under, List.prefix_concat_iff]
  constructor
  · rintro ⟨same | inside, differs⟩
    · exact absurd same differs
    · exact inside
  · intro inside
    refine ⟨Or.inr inside, ?_⟩
    rintro rfl
    have longer := inside.length_le
    rw [List.length_append, List.length_singleton] at longer
    omega

theorem step_here (names : List String) : step names "." = names := by simp [step]

theorem step_up (names : List String) : step names ".." = names.dropLast := by simp [step]

theorem IsSegment.cases (plain : IsSegment segment) : segment = "." ∨ segment = ".." ∨ IsName segment := by
  by_cases here : segment = "."
  · exact Or.inl here
  · by_cases up : segment = ".."
    · exact Or.inr (Or.inl up)
    · exact Or.inr (Or.inr ⟨plain.present, here, up, plain.noSlash⟩)

end Names

section Texts

variable {place root : Location}

theorem text_inj (proper : place.Proper) (rootProper : root.Proper) : place.text = root.text ↔ place = root := by
  refine ⟨fun same => ?_, congrArg Location.text⟩
  rw [← ofText_text proper, same, ofText_text rootProper]

theorem text_eq_bare_iff (doubled : Bool) (proper : place.Proper) :
    place.text = Location.text ⟨doubled, []⟩ ↔ place.doubled = doubled ∧ place.names = [] := by
  have bare : Location.Proper ⟨doubled, []⟩ := fun _ member => absurd member List.not_mem_nil
  rw [text_inj proper bare, Location.mk.injEq]

theorem slash_iff (proper : place.Proper) : place.text = "/" ↔ place.doubled = false ∧ place.names = [] :=
  text_eq_bare_iff false proper

theorem slashes_iff (proper : place.Proper) : place.text = "//" ↔ place.doubled = true ∧ place.names = [] :=
  text_eq_bare_iff true proper

theorem names_eq_nil_iff (proper : place.Proper) : place.names = [] ↔ place.text = "/" ∨ place.text = "//" := by
  rw [slash_iff proper, slashes_iff proper, ← or_and_right]
  simp

theorem exists_wayDown (proper : place.Proper) (rootProper : root.Proper) (named : root.names ≠ [])
    (below : isBelow root.text place.text = true) :
    ∃ rest, WayDown root.text place.text rest ∧ place = ⟨root.doubled, root.names ++ rest⟩ := by
  have slashes := mt (names_eq_nil_iff rootProper).mpr named
  rw [not_or] at slashes
  obtain ⟨rest, way⟩ := wayDown_of_below ⟨⟨root, rootProper, rfl⟩, slashes⟩ ⟨place, proper, rfl⟩ below
  have further : Location.Proper ⟨root.doubled, root.names ++ rest⟩ := by
    intro name member
    rcases List.mem_append.mp member with above | added
    · exact rootProper name above
    · exact way.proper name added
  have joined := way.joined
  rw [joinAll_text rootProper way.proper] at joined
  exact ⟨rest, way, (text_inj proper further).mp joined.symm⟩

/-- A canonical path lies below another exactly when its names go on. -/
theorem isBelow_text (rootProper : root.Proper) (proper : place.Proper) (named : root.names ≠ [])
    (same : place.doubled = root.doubled) : isBelow root.text place.text = true ↔ Under root.names place.names := by
  constructor
  · intro below
    obtain ⟨rest, way, reached⟩ := exists_wayDown proper rootProper named below
    exact under_append.mpr ⟨rest, way.present, by rw [reached]⟩
  · intro under
    obtain ⟨rest, present, further⟩ := under_append.mp under
    rw [isBelow, stripSlashes_text rootProper named, List.isPrefixOf_iff_prefix, Location.text, Location.text, same, further,
      String.intercalate_append_of_ne_nil named present]
    refine ⟨("/".intercalate rest).toList, ?_⟩
    simp [String.append_assoc]

end Texts

end Path

namespace Host

open DeclGraph.Path (Location)

variable {host : Host} {path name : String}

section Places

/-- The place that a path names on a host. -/
def placeOf (host : Host) (path : String) : Location :=
  let place := (Location.ofText host.cwd).join path
  if host.foldsCase then place.lowered else place

theorem placeOf_proper (host : Host) (path : String) : (host.placeOf path).Proper := by
  have proper := Location.join_proper (Path.ofText_proper host.cwd) path
  rw [placeOf]
  split
  · exact Path.lowered_proper proper
  · exact proper

theorem canonical_eq (host : Host) (path : String) : host.canonical path = (host.placeOf path).text := by
  have proper := Location.join_proper (Path.ofText_proper host.cwd) path
  rw [canonical, placeOf, Path.normalize, Path.absolute, Location.ofText_joinTo]
  split
  · exact Path.lower_text proper
  · rfl

end Places

section Spelling

/-- A name as it stands in the canonical paths of a host. -/
def spelled (host : Host) (name : String) : String := if host.foldsCase then Text.lower name else name

theorem spelled_eq (host : Host) : host.spelled = if host.foldsCase then Text.lower else id := by
  funext name
  rw [spelled]
  split
  · rfl
  · rfl

theorem spelled_eq_here : host.spelled name = "." ↔ name = "." := by
  rw [spelled]
  split
  · exact Path.lower_eq_here
  · exact Iff.rfl

theorem spelled_eq_up : host.spelled name = ".." ↔ name = ".." := by
  rw [spelled]
  split
  · exact Path.lower_eq_up
  · exact Iff.rfl

theorem isSegment_spelled (plain : Path.IsSegment name) : Path.IsSegment (host.spelled name) := by
  rw [spelled]
  split
  · refine ⟨mt Path.lower_eq_empty.mp plain.present, fun slash => plain.noSlash ?_⟩
    exact Text.slash_of_lowers (Path.lowers_lower name) slash
  · exact plain

theorem isName_spelled (proper : Path.IsName name) : Path.IsName (host.spelled name) := by
  rw [spelled]
  split
  · exact Path.isName_lower proper
  · exact proper

theorem placeOf_spelled (host : Host) (path : String) : host.placeOf path =
    ⟨((Location.ofText host.cwd).join path).doubled, ((Location.ofText host.cwd).join path).names.map host.spelled⟩ := by
  rw [placeOf, spelled_eq]
  split
  · rfl
  · rw [List.map_id]

/-- Seen from a place that is already spelled as a host does, only the steps have to be spelled so. -/
theorem placeOf_of_steps {doubled : Bool} {names segments : List String} (rooted : Path.isAbsolute path = true)
    (leads : Location.ofText path = ⟨doubled, segments.foldl Path.step names⟩) (kept : names.map host.spelled = names) :
    host.placeOf path = ⟨doubled, (segments.map host.spelled).foldl Path.step names⟩ := by
  rw [placeOf_spelled, Location.join, if_pos rooted, leads]
  rw [spelled_eq] at kept ⊢
  split at kept
  · next folds => rw [if_pos folds, ← kept, Path.foldl_step_lower, kept]
  · next differs => rw [if_neg differs, List.map_id, List.map_id]

theorem map_spelled {root : Location} (proper : root.Proper) (fixed : host.canonical root.text = root.text) :
    root.names.map host.spelled = root.names := by
  rw [canonical_eq, Path.text_inj (placeOf_proper host root.text) proper, placeOf_spelled, Location.join,
    if_pos (Path.isAbsolute_text root), Path.ofText_text proper] at fixed
  exact congrArg Location.names fixed

end Spelling

end Host

end DeclGraph
