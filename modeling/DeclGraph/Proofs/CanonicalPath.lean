import Mathlib.Data.List.Basic
import DeclGraph.Host
import DeclGraph.Proofs.LetterCase

/-!
Canonical paths are the texts of places: a root of one or two slashes and proper names below it. Every
host answers with such a path, and gives it back unchanged when asked again, from any working
directory. A canonical path lies below another exactly when its place does, and the way between them
leads back.
-/

namespace DeclGraph.Path

theorem pieces_eq_splitOn (separator : Char) (cs : List Char) :
    pieces separator cs = cs.splitOn separator := by
  induction cs with
  | nil => rfl
  | cons c rest ih =>
    rw [List.splitOn_cons_eq_if_modifyHead, pieces, ih]
    by_cases same : c = separator
    · simp [same]
    · simp only [same, ↓reduceIte, beq_iff_eq]
      cases split : rest.splitOn separator with
      | nil => exact absurd split (List.splitOn_ne_nil separator rest)
      | cons first more => rfl

theorem segments_eq (path : String) :
    segments path = (path.toList.splitOn '/').map String.ofList := by
  rw [segments, pieces_eq_splitOn]

theorem segments_ne_nil (path : String) : segments path ≠ [] := by
  simp [segments_eq]

theorem intercalate_segments (path : String) : "/".intercalate (segments path) = path := by
  apply String.toList_injective
  simp [segments_eq, List.intercalate_splitOn, Function.comp_def]

theorem segments_intercalate (names : List String) (plain : ∀ name ∈ names, '/' ∉ name.toList)
    (present : names ≠ []) : segments ("/".intercalate names) = names := by
  have apart : ∀ cs ∈ names.map String.toList, '/' ∉ cs := by
    intro cs member
    rcases List.mem_map.mp member with ⟨name, listed, rfl⟩
    exact plain name listed
  have split := List.splitOn_intercalate '/' apart (by simpa using present)
  simp [segments_eq, split, Function.comp_def]

theorem segments_injective {path other : String} (same : segments path = segments other) :
    path = other := by
  rw [← intercalate_segments path, same, intercalate_segments]

theorem segments_append_slash (path more : String) :
    segments (path ++ "/" ++ more) = segments path ++ segments more := by
  simp [segments_eq, List.splitOn_append_cons_self]

theorem no_slash_of_mem_splitOn (cs : List Char) : ∀ piece ∈ cs.splitOn '/', '/' ∉ piece := by
  induction cs with
  | nil => simp
  | cons c rest ih =>
    intro piece member
    rw [List.splitOn_cons_eq_if_modifyHead] at member
    cases split : rest.splitOn '/' with
    | nil => exact absurd split (List.splitOn_ne_nil '/' rest)
    | cons first more =>
      rw [split] at ih member
      by_cases same : c = '/'
      · simp only [beq_iff_eq, same, ↓reduceIte, List.mem_cons] at member
        rcases member with rfl | later
        · simp
        · exact ih piece (List.mem_cons.mpr later)
      · simp only [beq_iff_eq, same, ↓reduceIte, List.modifyHead_cons, List.mem_cons] at member
        rcases member with rfl | later
        · simpa [Ne.symm same] using ih first (by simp)
        · exact ih piece (by simp [later])

theorem no_slash_of_mem_segments {path segment : String} (member : segment ∈ segments path) :
    '/' ∉ segment.toList := by
  rw [segments_eq] at member
  rcases List.mem_map.mp member with ⟨piece, listed, rfl⟩
  simpa using no_slash_of_mem_splitOn _ piece listed

structure IsSegment (segment : String) : Prop where
  present : segment ≠ ""
  noSlash : '/' ∉ segment.toList

structure IsName (name : String) : Prop where
  present : name ≠ ""
  notHere : name ≠ "."
  notUp : name ≠ ".."
  noSlash : '/' ∉ name.toList

theorem IsName.isSegment {name : String} (proper : IsName name) : IsSegment name := ⟨proper.present, proper.noSlash⟩

theorem isAbsolute_eq_false {path : String} : isAbsolute path = false ↔ path.toList.head? ≠ some '/' := by
  simp [isAbsolute]

theorem not_isAbsolute_segment {segment : String} (plain : IsSegment segment) : isAbsolute segment = false :=
  isAbsolute_eq_false.mpr fun first => plain.noSlash (List.mem_of_head? first)

theorem not_isAbsolute_intercalate {names : List String} (plain : ∀ name ∈ names, IsSegment name) :
    isAbsolute ("/".intercalate names) = false := by
  cases names with
  | nil => rfl
  | cons name rest =>
    have first := plain name List.mem_cons_self
    have present : name.toList ≠ [] := fun none => first.present (String.toList_injective none)
    have relative := isAbsolute_eq_false.mp (not_isAbsolute_segment first)
    rw [isAbsolute_eq_false]
    cases rest with
    | nil => simpa using relative
    | cons other others =>
      rw [String.intercalate_cons_cons, String.toList_append, String.toList_append, List.append_assoc,
        List.head?_append_of_ne_nil _ present]
      exact relative

theorem isDoubled_iff {path : String} :
    isDoubled path = true ↔ ∃ rest, path.toList = '/' :: '/' :: rest ∧ rest.head? ≠ some '/' := by
  rw [isDoubled]
  split
  · next spelled => simp [spelled]
  · next rest apart spelled =>
    refine iff_of_true rfl ⟨rest, spelled, ?_⟩
    intro third
    obtain ⟨more, rfl⟩ := List.head?_eq_some_iff.mp third
    exact apart more rfl
  · next apart =>
    refine iff_of_false Bool.false_ne_true ?_
    rintro ⟨rest, spelled, _⟩
    exact apart rest spelled

theorem isDoubled_of_relative {path : String} (relative : isAbsolute path = false) : isDoubled path = false := by
  rw [← Bool.not_eq_true, isDoubled_iff]
  rintro ⟨rest, spelled, _⟩
  simp [isAbsolute, spelled] at relative

theorem isDoubled_root {text : String} (doubled : Bool) (relative : isAbsolute text = false) :
    isDoubled ((if doubled then "//" else "/") ++ text) = doubled := by
  rw [isAbsolute_eq_false] at relative
  rw [Bool.eq_iff_iff, isDoubled_iff]
  cases doubled
  · simp only [Bool.false_eq_true, if_false, iff_false]
    rintro ⟨rest, spelled, _⟩
    have first : text.toList = '/' :: rest := by simpa using spelled
    simp [first] at relative
  · simpa using relative

def Location.Proper (place : Location) : Prop := ∀ name ∈ place.names, IsName name

/-- The text of a place with proper names. -/
def IsCanonical (path : String) : Prop := ∃ place : Location, place.Proper ∧ place.text = path

theorem step_name {name : String} (proper : IsName name) (names : List String) :
    step names name = names ++ [name] := by
  simp [step, proper.present, proper.notHere, proper.notUp]

theorem foldl_step_names (names more : List String) (proper : ∀ name ∈ more, IsName name) :
    more.foldl step names = names ++ more := by
  induction more generalizing names with
  | nil => simp
  | cons name rest ih =>
    rw [List.foldl_cons, step_name (proper name (by simp)),
      ih _ (fun other member => proper other (List.mem_cons_of_mem name member))]
    simp

theorem step_proper (names : List String) (segment : String) (plain : '/' ∉ segment.toList)
    (proper : ∀ name ∈ names, IsName name) : ∀ name ∈ step names segment, IsName name := by
  intro name member
  by_cases stays : segment = "" ∨ segment = "."
  · exact proper name (by simpa [step, stays] using member)
  · by_cases up : segment = ".."
    · have kept : name ∈ names.dropLast := by simpa [step, up] using member
      exact proper name ((List.dropLast_sublist names).mem kept)
    · have parts : name ∈ names ∨ name = segment := by simpa [step, stays, up] using member
      rcases parts with old | rfl
      · exact proper name old
      · exact ⟨fun h => stays (Or.inl h), fun h => stays (Or.inr h), up, plain⟩

theorem foldl_step_proper (segments names : List String)
    (plain : ∀ segment ∈ segments, '/' ∉ segment.toList) (proper : ∀ name ∈ names, IsName name) :
    ∀ name ∈ segments.foldl step names, IsName name := by
  induction segments generalizing names with
  | nil => simpa using proper
  | cons segment rest ih =>
    apply ih
    · exact fun other member => plain other (List.mem_cons_of_mem segment member)
    · exact step_proper names segment (plain segment (by simp)) proper

theorem ofText_proper (path : String) : (Location.ofText path).Proper :=
  foldl_step_proper _ [] (fun _ member => no_slash_of_mem_segments member) (by simp)

/-- What stands between the slashes of a canonical path: nothing for each slash of the root, then the
names, or nothing again if there are none. -/
def Location.segments (place : Location) : List String :=
  (if place.doubled then ["", ""] else [""]) ++ (if place.names = [] then [""] else place.names)

theorem text_eq_intercalate (place : Location) :
    place.text = "/".intercalate place.segments := by
  rcases place with ⟨doubled, names⟩
  apply String.toList_injective
  cases names with
  | nil => cases doubled <;> rfl
  | cons name rest => cases doubled <;> simp [Location.text, Location.segments]

theorem mem_segments_place {place : Location} {segment : String} (member : segment ∈ place.segments)
    (present : segment ≠ "") : segment ∈ place.names := by
  simp only [Location.segments, List.mem_append] at member
  rcases member with lead | below
  · split at lead <;> simp_all
  · split at below
    · simp_all
    · exact below

theorem segments_text_of_plain {place : Location} (plain : ∀ name ∈ place.names, '/' ∉ name.toList) :
    Path.segments place.text = place.segments := by
  rw [text_eq_intercalate]
  apply segments_intercalate
  · intro segment member
    by_cases bare : segment = ""
    · simp [bare]
    · exact plain segment (mem_segments_place member bare)
  · rw [Location.segments]
    split <;> simp

theorem segments_text {place : Location} (proper : place.Proper) : Path.segments place.text = place.segments :=
  segments_text_of_plain fun name member => (proper name member).noSlash

theorem follow_segments_eq (place : Location) : follow place.segments = place.names.foldl step [] := by
  rcases place with ⟨doubled, names⟩
  have lead : ∀ more, (if doubled then ["", ""] else [""]).foldl step more = more := by
    intro more
    cases doubled <;> simp [step]
  simp only [follow, Location.segments, List.foldl_append, lead]
  split
  · simp_all [step]
  · rfl

theorem follow_segments {place : Location} (proper : place.Proper) :
    follow place.segments = place.names := by
  rw [follow_segments_eq]
  simpa using foldl_step_names [] place.names proper

theorem isDoubled_text {place : Location} (proper : place.Proper) : isDoubled place.text = place.doubled :=
  isDoubled_root place.doubled (not_isAbsolute_intercalate fun name member => (proper name member).isSegment)

theorem ofText_text {place : Location} (proper : place.Proper) :
    Location.ofText place.text = place := by
  rw [Location.ofText, isDoubled_text proper, segments_text proper, follow_segments proper]

theorem isAbsolute_text (place : Location) : isAbsolute place.text = true := by
  rcases place with ⟨doubled, names⟩
  cases doubled <;> simp [isAbsolute, Location.text]

theorem absolute_of_isAbsolute {path : String} (rooted : isAbsolute path = true) (cwd : String) :
    absolute cwd path = path := by
  simp [absolute, joinTo, rooted]

theorem normalize_canonical {path : String} (canonical : IsCanonical path) (cwd : String) :
    normalize cwd path = path := by
  rcases canonical with ⟨place, proper, rfl⟩
  rw [normalize, absolute_of_isAbsolute (isAbsolute_text place), ofText_text proper]

theorem isCanonical_normalize (cwd path : String) : IsCanonical (normalize cwd path) :=
  ⟨Location.ofText (absolute cwd path), ofText_proper _, rfl⟩

section Lowering

open Text (Lowers lower lowerFrom lowers_lowerFrom)

theorem lowerFrom_intercalate (pieces : List (List Char)) :
    lowerFrom [] (['/'].intercalate pieces) = ['/'].intercalate (pieces.map (lowerFrom [])) := by
  induction pieces with
  | nil => rfl
  | cons piece rest ih =>
    cases rest with
    | nil => simp
    | cons next more =>
      rw [List.map_cons, List.map_cons, List.intercalate_cons_cons, List.intercalate_cons_cons, List.append_assoc,
        List.append_assoc, List.singleton_append, List.singleton_append, Text.lowerFrom_append_slash, ih, List.map_cons]

theorem segments_lower (path : String) : segments (lower path) = (segments path).map lower := by
  have apart : ∀ piece ∈ (path.toList.splitOn '/').map (lowerFrom []), '/' ∉ piece := by
    intro piece member slash
    obtain ⟨cs, listed, rfl⟩ := List.mem_map.mp member
    exact no_slash_of_mem_splitOn _ cs listed (Text.slash_of_lowers (lowers_lowerFrom [] cs) slash)
  have split := List.splitOn_intercalate '/' apart (by simp)
  rw [← lowerFrom_intercalate, List.intercalate_splitOn] at split
  simp [segments_eq, lower, split, Function.comp_def]

theorem lowers_nil_iff {cs ds : List Char} (lowers : Lowers cs ds) : ds = [] ↔ cs = [] := by
  cases lowers with
  | nil => simp
  | cons fits _ => simp [fits.present]

theorem lowers_dot {cs : List Char} (lowers : Lowers cs ['.']) : cs = ['.'] := by
  generalize written : ['.'] = ds at lowers
  cases lowers with
  | nil => simp at written
  | @cons c image rest ds fits tail =>
    rcases List.append_eq_singleton_iff.mp written.symm with ⟨none, _⟩ | ⟨one, ended⟩
    · exact absurd none fits.present
    · have isDot := fits.dot (by simp [one])
      have rested := (lowers_nil_iff tail).mp ended
      simp [isDot, rested, one, ended]

theorem lowers_dots {cs : List Char} (lowers : Lowers cs ['.', '.']) : cs = ['.', '.'] := by
  generalize written : ['.', '.'] = ds at lowers
  cases lowers with
  | nil => simp at written
  | @cons c image rest ds fits tail =>
    -- The first character gives exactly one of the dots, for a dot is lowered to itself.
    have dotted : '.' ∈ image := by
      cases image with
      | nil => exact absurd rfl fits.present
      | cons d more =>
        exact List.mem_cons.mpr (Or.inl (List.cons.inj written).1)
    have isDot := fits.dot dotted
    have kept := fits.dotKept isDot
    have single : ds = ['.'] := by simpa [kept] using written.symm
    have rested := lowers_dot (single ▸ tail)
    simp [isDot, kept, single, rested]

section Segments

theorem lowers_lower (text : String) : Lowers text.toList (lower text).toList := by
  simpa [lower] using lowers_lowerFrom [] text.toList

theorem lower_eq_empty {text : String} : lower text = "" ↔ text = "" := by
  rw [← String.toList_inj, ← String.toList_inj]
  exact lowers_nil_iff (lowers_lower text)

theorem lower_eq_here {text : String} : lower text = "." ↔ text = "." := by
  constructor
  · intro here
    have lowers := lowers_lower text
    rw [here] at lowers
    exact String.toList_injective (lowers_dot lowers)
  · rintro rfl
    decide +kernel

theorem lower_eq_up {text : String} : lower text = ".." ↔ text = ".." := by
  constructor
  · intro up
    have lowers := lowers_lower text
    rw [up] at lowers
    exact String.toList_injective (lowers_dots lowers)
  · rintro rfl
    decide +kernel

theorem isName_lower {name : String} (proper : IsName name) : IsName (lower name) where
  present := mt lower_eq_empty.mp proper.present
  notHere := mt lower_eq_here.mp proper.notHere
  notUp := mt lower_eq_up.mp proper.notUp
  noSlash slash := proper.noSlash (Text.slash_of_lowers (lowers_lower name) slash)

theorem step_lower (names : List String) (segment : String) :
    step (names.map lower) (lower segment) = (step names segment).map lower := by
  simp only [step, lower_eq_empty, lower_eq_here, lower_eq_up]
  split
  · rfl
  · split
    · exact List.map_dropLast.symm
    · simp

theorem foldl_step_lower (names segments : List String) :
    (segments.map lower).foldl step (names.map lower) = (segments.foldl step names).map lower := by
  induction segments generalizing names with
  | nil => rfl
  | cons segment rest ih => rw [List.map_cons, List.foldl_cons, List.foldl_cons, step_lower, ih]

end Segments

def Location.lowered (place : Location) : Location := ⟨place.doubled, place.names.map lower⟩

theorem lowered_proper {place : Location} (proper : place.Proper) : place.lowered.Proper := by
  intro name member
  obtain ⟨given, listed, rfl⟩ := List.mem_map.mp member
  exact isName_lower (proper given listed)

theorem lower_text {place : Location} (proper : place.Proper) : lower place.text = place.lowered.text := by
  apply segments_injective
  rw [segments_lower, segments_text proper, segments_text (lowered_proper proper)]
  have root : lower "" = "" := lower_eq_empty.mpr rfl
  rcases place with ⟨doubled, names⟩
  cases doubled <;> by_cases bare : names = [] <;> simp [Location.segments, Location.lowered, bare, root]

theorem isCanonical_lower {path : String} (canonical : IsCanonical path) : IsCanonical (lower path) := by
  obtain ⟨place, proper, rfl⟩ := canonical
  exact ⟨place.lowered, lowered_proper proper, (lower_text proper).symm⟩

end Lowering

section Below

theorem text_append_name (doubled : Bool) (names : List String) (name : String) :
    Location.text ⟨doubled, names ++ [name]⟩
      = Location.text ⟨doubled, names⟩ ++ (if names = [] then "" else "/") ++ name := by
  by_cases bare : names = []
  · simp [bare, Location.text]
  · simp [bare, Location.text, String.intercalate_append_of_ne_nil bare, String.append_assoc]

theorem getLast?_text {place : Location} (proper : place.Proper) (named : place.names ≠ []) :
    ∃ c, place.text.toList.getLast? = some c ∧ c ≠ '/' := by
  rcases place with ⟨doubled, names⟩
  rcases List.eq_nil_or_concat names with bare | ⟨above, name, rfl⟩
  · exact absurd bare named
  · have proper := proper name (by simp)
    obtain ⟨c, last⟩ : ∃ c, name.toList.getLast? = some c := by
      cases ends : name.toList.getLast? with
      | none =>
        have empty := List.getLast?_eq_none_iff.mp ends
        exact absurd (String.toList_injective empty) proper.present
      | some c => exact ⟨c, rfl⟩
    refine ⟨c, ?_, ?_⟩
    · rw [List.concat_eq_append, text_append_name, String.toList_append, List.getLast?_append, last]
      rfl
    · rintro rfl
      exact proper.noSlash (List.mem_of_getLast? last)

theorem endsInSlash_text {place : Location} (proper : place.Proper) (named : place.names ≠ []) :
    endsInSlash place.text = false := by
  rcases getLast?_text proper named with ⟨c, last, different⟩
  simp [endsInSlash, last, different]

theorem stripSlashes_text {place : Location} (proper : place.Proper) (named : place.names ≠ []) :
    stripSlashes place.text.toList = place.text.toList := by
  rcases getLast?_text proper named with ⟨c, last, different⟩
  rcases List.getLast?_eq_some_iff.mp last with ⟨more, written⟩
  simp [stripSlashes, written, different]

theorem not_isAbsolute_name {name : String} (proper : IsName name) : isAbsolute name = false :=
  not_isAbsolute_segment proper.isSegment

theorem joinTo_text {place : Location} (proper : place.Proper) {name : String} (named : IsName name) :
    joinTo place.text name = Location.text ⟨place.doubled, place.names ++ [name]⟩ := by
  rcases place with ⟨doubled, names⟩
  rw [text_append_name, joinTo, not_isAbsolute_name named]
  by_cases bare : names = []
  · subst bare
    cases doubled <;> simp [Location.text, endsInSlash]
  · have notEmpty : Location.text ⟨doubled, names⟩ ≠ "" := by
      cases doubled <;> simp [Location.text]
    simp [notEmpty, endsInSlash_text proper bare, bare]

theorem joinAll_text {place : Location} (proper : place.Proper) {rest : List String}
    (named : ∀ name ∈ rest, IsName name) :
    joinAll place.text rest = Location.text ⟨place.doubled, place.names ++ rest⟩ := by
  induction rest generalizing place with
  | nil => simp [joinAll]
  | cons name rest ih =>
    have next : Location.Proper ⟨place.doubled, place.names ++ [name]⟩ := by
      intro other member
      rcases List.mem_append.mp member with old | added
      · exact proper other old
      · exact List.mem_singleton.mp added ▸ named name (by simp)
    have tail := ih next (fun other member => named other (List.mem_cons_of_mem name member))
    rw [joinAll, List.foldl_cons, joinTo_text proper (named name (by simp))]
    simpa [joinAll] using tail

/-- A root that has names, so that it is neither `/` nor `//`. -/
def IsNamedRoot (root : String) : Prop := IsCanonical root ∧ root ≠ "/" ∧ root ≠ "//"

theorem named_of_isNamedRoot {place : Location} (named : IsNamedRoot place.text) :
    place.names ≠ [] := by
  intro bare
  rcases place with ⟨doubled, names⟩
  subst bare
  cases doubled
  · exact named.2.1 rfl
  · exact named.2.2 rfl

theorem names_of_segments_append {root place : Location} (rootProper : root.Proper)
    (proper : place.Proper) (named : root.names ≠ []) {more : List String}
    (split : place.segments = root.segments ++ more) :
    place.doubled = root.doubled ∧ place.names = root.names ++ more := by
  rcases List.exists_cons_of_ne_nil named with ⟨first, others, rootNames⟩
  have firstProper := rootProper first (by simp [rootNames])
  have below : first ∈ place.names := by
    apply mem_segments_place _ firstProper.present
    rw [split]
    simp [Location.segments, rootNames]
  have placeNamed : place.names ≠ [] := List.ne_nil_of_mem below
  have placeFirst : ∀ rest, place.names ≠ "" :: rest := by
    intro rest same
    exact (proper "" (by simp [same])).present rfl
  simp only [Location.segments, if_neg named, if_neg placeNamed] at split
  -- Were the roots of different kinds, a name would have to be empty.
  cases two : place.doubled <;> cases rootTwo : root.doubled <;> rw [two, rootTwo] at split
  · exact ⟨rfl, by simpa using split⟩
  · exact absurd (by simpa using split) (placeFirst (root.names ++ more))
  · simp [rootNames, Ne.symm firstProper.present] at split
  · exact ⟨rfl, by simpa using split⟩

theorem splitCommon_append (names rest : List String) :
    splitCommon names (names ++ rest) = ([], rest) := by
  induction names with
  | nil => cases rest <;> rfl
  | cons name names ih => simpa [splitCommon] using ih

theorem names_text {place : Location} (proper : place.Proper) : names place.text = place.names := by
  rw [names, segments_text proper, Location.segments, List.filter_append]
  have kept : place.names.filter (· ≠ "") = place.names :=
    List.filter_eq_self.mpr (fun name member => by simpa using (proper name member).present)
  by_cases bare : place.names = []
  · cases place.doubled <;> simp [bare]
  · cases place.doubled <;> simpa [bare] using kept

/-- The way from a root down to a path below it: proper names that, followed from the root, give the
path again. -/
structure WayDown (root path : String) (rest : List String) : Prop where
  present : rest ≠ []
  proper : ∀ name ∈ rest, IsName name
  joined : joinAll root rest = path
  written : path = root ++ "/" ++ "/".intercalate rest
  found : wayFrom root path = rest

theorem wayDown_of_below {root path : String} (named : IsNamedRoot root)
    (canonical : IsCanonical path) (below : isBelow root path = true) :
    ∃ rest, WayDown root path rest := by
  rcases named.1 with ⟨rootPlace, rootProper, rfl⟩
  rcases canonical with ⟨place, proper, rfl⟩
  have rootNamed := named_of_isNamedRoot named
  rw [isBelow, stripSlashes_text rootProper rootNamed, List.isPrefixOf_iff_prefix] at below
  rcases below with ⟨tail, written⟩
  have text : place.text = rootPlace.text ++ "/" ++ String.ofList tail := by
    apply String.toList_injective
    simpa using written.symm
  have split : place.segments = rootPlace.segments ++ segments (String.ofList tail) := by
    rw [← segments_text proper, ← segments_text rootProper, text, segments_append_slash]
  rcases names_of_segments_append rootProper proper rootNamed split with ⟨sameRoot, placeNames⟩
  have restProper : ∀ name ∈ segments (String.ofList tail), IsName name := by
    intro name member
    exact proper name (by simp [placeNames, member])
  refine ⟨segments (String.ofList tail), segments_ne_nil _, restProper, ?_, ?_, ?_⟩
  · rw [joinAll_text rootProper restProper, ← sameRoot, ← placeNames]
  · rw [intercalate_segments, text]
  · rw [wayFrom, names_text rootProper, names_text proper, placeNames, splitCommon_append]
    rfl

theorem forwardSlashes_of_plain {text : String} (plain : '\\' ∉ text.toList) :
    forwardSlashes text = text := by
  apply String.toList_injective
  rw [forwardSlashes, String.toList_ofList]
  conv_rhs => rw [← List.map_id text.toList]
  apply List.map_congr_left
  intro c member
  have different : c ≠ '\\' := fun same => plain (same ▸ member)
  simp [different]

/-- Without backslashes, the relative name of a path below a root is its way down. -/
theorem relativeTo_wayDown {root path : String} {rest : List String} (way : WayDown root path rest)
    (plain : '\\' ∉ path.toList.drop root.toList.length) :
    relativeTo root path = "/".intercalate rest := by
  have plainRest : '\\' ∉ ("/".intercalate rest).toList := by
    have dropped : path.toList.drop root.toList.length
        = '/' :: ("/".intercalate rest).toList := by
      simp [way.written]
    rw [dropped] at plain
    exact fun member => plain (List.mem_cons_of_mem _ member)
  rw [relativeTo, way.found]
  cases rest with
  | nil => exact absurd rfl way.present
  | cons name more => exact forwardSlashes_of_plain plainRest

theorem segments_wayDown {root path : String} {rest : List String} (way : WayDown root path rest) :
    segments ("/".intercalate rest) = rest :=
  segments_intercalate rest (fun name member => (way.proper name member).noSlash) way.present

theorem intercalate_isRelative {rest : List String} (present : rest ≠ [])
    (named : ∀ name ∈ rest, IsName name) :
    "/".intercalate rest ≠ "" ∧ isAbsolute ("/".intercalate rest) = false := by
  refine ⟨fun empty => ?_, not_isAbsolute_intercalate fun name member => (named name member).isSegment⟩
  have split := segments_intercalate rest (fun name member => (named name member).noSlash) present
  rw [empty] at split
  have nameless : "" ∈ rest := by
    rw [← split]
    exact List.mem_singleton_self ""
  exact (named "" nameless).present rfl

theorem wayDown_isRelative {root path : String} {rest : List String} (way : WayDown root path rest) :
    "/".intercalate rest ≠ "" ∧ isAbsolute ("/".intercalate rest) = false :=
  intercalate_isRelative way.present way.proper

theorem relativeTo_bare (doubled : Bool) {place : Location} (proper : place.Proper) (named : place.names ≠ []) :
    relativeTo (Location.text ⟨doubled, []⟩) place.text = forwardSlashes ("/".intercalate place.names) := by
  have bare : names (Location.text ⟨doubled, []⟩) = [] := by cases doubled <;> rfl
  rw [relativeTo, wayFrom, bare, names_text proper]
  cases spelled : place.names with
  | nil => exact absurd spelled named
  | cons name rest => rfl

end Below

end DeclGraph.Path

namespace DeclGraph.Host

open DeclGraph.Path (IsCanonical)

theorem isCanonical_canonical (host : Host) (path : String) : IsCanonical (host.canonical path) := by
  have placed := Path.isCanonical_normalize host.cwd path
  by_cases folds : host.foldsCase = true
  · simpa [canonical, folds] using Path.isCanonical_lower placed
  · simpa [canonical, folds] using placed

/-- A canonical path is its own canonical form, wherever the working directory is by then. -/
theorem canonical_canonical (host other : Host) (same : host.foldsCase = other.foldsCase)
    (path : String) : host.canonical (other.canonical path) = other.canonical path := by
  have kept := Path.normalize_canonical (isCanonical_canonical other path) host.cwd
  rw [canonical, kept, same]
  by_cases folds : other.foldsCase = true
  · simp [canonical, folds, Text.lower_lower]
  · simp [folds]

theorem isCanonical_of_fixed {host : Host} {path : String} (fixed : host.canonical path = path) :
    IsCanonical path := fixed ▸ isCanonical_canonical host path

theorem locate_eq_ok {host : Host} {path place : String} :
    host.locate path = .ok place ↔ path ≠ "" ∧ host.canonical path = place := by
  by_cases empty : path = "" <;> simp [locate, empty]

theorem locateValue_eq_ok {host : Host} {value : Document} {place : String}
    (located : host.locateValue value = .ok place) :
    ∃ path, value = .text path ∧ path ≠ "" ∧ host.canonical path = place := by
  unfold locateValue at located
  split at located
  · cases located
  · next path => exact ⟨path, rfl, locate_eq_ok.mp located⟩
  · cases located

end DeclGraph.Host
