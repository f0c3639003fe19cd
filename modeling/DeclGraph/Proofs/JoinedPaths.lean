import DeclGraph.Path.Trail
import DeclGraph.Proofs.CanonicalPath

/-!
Joined paths lead on from place to place. A path joined to another names the place that its last part leads to, seen
from the place of the part before it; a trail leads to the place of the text that it was read from. So it does not
matter where in between a path is made canonical, nor where its names are lowered.
-/

namespace DeclGraph.Path

variable {path : String} {names : List String}

theorem isDoubled_joinTo (base : String) (relative : isAbsolute path = false) :
    isDoubled (joinTo base path) = isDoubled base := by
  have first := isAbsolute_eq_false.mp relative
  rw [joinTo, relative, if_neg Bool.false_ne_true, Bool.eq_iff_iff, isDoubled_iff, isDoubled_iff]
  -- At most three characters of the base decide.
  rcases spelled : base.toList with _ | ⟨a, _ | ⟨b, _ | ⟨c, rest⟩⟩⟩
  · have none : base = "" := String.toList_injective spelled
    rw [if_pos (Or.inl none), none, String.empty_append, ← isDoubled_iff, isDoubled_of_relative relative]
    simp
  · by_cases slash : a = '/'
    · rw [if_pos (Or.inr (by simp [endsInSlash, spelled, slash]))]
      have apart : ∀ rest, path.toList ≠ '/' :: rest := fun rest same => first (by simp [same])
      simp [spelled, apart]
    · rw [if_neg (by simp [endsInSlash, spelled, slash, ← String.toList_inj])]
      simp [spelled, slash]
  · split
    · simpa [spelled] using fun _ _ => first
    · next ends =>
      have differs : b ≠ '/' := fun same => ends (Or.inr (by simp [endsInSlash, spelled, same]))
      simp [spelled, differs]
  · split <;> simp [spelled]

theorem segments_joinTo (base : String) : ∃ lead, (∀ path, isAbsolute path = false →
    segments (joinTo base path) = lead ++ segments path) ∧ ∀ names, lead.foldl step names = (segments base).foldl step names := by
  by_cases bare : base = ""
  · subst bare
    refine ⟨[], fun path relative => ?_, fun names => by simp [segments_eq, step]⟩
    simp [joinTo, relative]
  · by_cases slash : endsInSlash base = true
    · obtain ⟨cs, written⟩ := List.getLast?_eq_some_iff.mp (by simpa [endsInSlash] using slash)
      have split : base = String.ofList cs ++ "/" ++ "" := String.toList_injective (by simpa using written)
      refine ⟨segments (String.ofList cs), fun path relative => ?_, fun names => ?_⟩
      · rw [joinTo, relative, if_neg Bool.false_ne_true, if_pos (Or.inr slash), split, String.append_empty,
          segments_append_slash]
      · rw [split, segments_append_slash, List.foldl_append]
        simp [segments_eq, step]
    · refine ⟨segments base, fun path relative => ?_, fun _ => rfl⟩
      rw [joinTo, relative, if_neg Bool.false_ne_true, if_neg (not_or.mpr ⟨bare, slash⟩), segments_append_slash]

theorem segments_segment {segment : String} (plain : IsSegment segment) : segments segment = [segment] := by
  simpa using segments_intercalate [segment] (by simpa using plain.noSlash) (by simp)

namespace Location

/-- The place that a path names, seen from a place. -/
def join (place : Location) (path : String) : Location :=
  if isAbsolute path then ofText path else ⟨place.doubled, (Path.segments path).foldl step place.names⟩

theorem ofText_joinTo (base path : String) : ofText (joinTo base path) = (ofText base).join path := by
  by_cases rooted : isAbsolute path = true
  · rw [joinTo, if_pos rooted, join, if_pos rooted]
  · rw [Bool.not_eq_true] at rooted
    obtain ⟨lead, joined, led⟩ := segments_joinTo base
    rw [join, if_neg (by simp [rooted]), ofText, isDoubled_joinTo base rooted, joined path rooted, follow,
      List.foldl_append, led, ofText, follow]

theorem join_segment (place : Location) {segment : String} (plain : IsSegment segment) :
    place.join segment = ⟨place.doubled, step place.names segment⟩ := by
  rw [join, not_isAbsolute_segment plain, segments_segment plain]
  rfl

theorem join_proper {place : Location} (proper : place.Proper) (path : String) : (place.join path).Proper := by
  rw [join]
  split
  · exact ofText_proper path
  · exact foldl_step_proper _ _ (fun _ member => no_slash_of_mem_segments member) proper

theorem lowered_join (place : Location) (path : String) : (place.lowered.join path).lowered = (place.join path).lowered := by
  rw [join, join]
  split
  · rfl
  · have still : (place.names.map Text.lower).map Text.lower = place.names.map Text.lower := by
      rw [List.map_map]
      exact List.map_congr_left fun name _ => Text.lower_lower name
    simp only [lowered, Location.mk.injEq, true_and]
    rw [← foldl_step_lower, ← foldl_step_lower, still]

/-- The place that a trail leads to, seen from a place. -/
def along (place : Location) (trail : Trail) : Location :=
  if trail.root = "" then ⟨place.doubled, trail.names.foldl step place.names⟩
  else ⟨trail.root = "//", trail.names.foldl step []⟩

theorem along_append (place : Location) (trail more : Trail) :
    place.along (trail.append more) = (place.along trail).along more := by
  by_cases relative : more.root = ""
  · by_cases here : trail.root = ""
    · simp [along, Trail.append, relative, here]
    · simp [along, Trail.append, relative, here]
  · simp [along, Trail.append, relative]

end Location

namespace Trail

/-- The root holds leading slashes, and names stand between slashes. -/
structure Sound (trail : Trail) : Prop where
  root : trail.root = "" ∨ trail.root = "/" ∨ trail.root = "//"
  names : ∀ name ∈ trail.names, IsSegment name

theorem sound_ofText (path : String) : (ofText path).Sound where
  root := by
    rw [ofText, rootOf]
    split
    · exact Or.inr (Or.inr rfl)
    · split
      · exact Or.inr (Or.inl rfl)
      · exact Or.inl rfl
  names := by
    intro name member
    have kept := List.mem_filter.mp member
    simp only [ne_eq, decide_eq_true_eq] at kept
    exact ⟨kept.2.1, no_slash_of_mem_segments kept.1⟩

theorem Sound.append {trail more : Trail} (sound : trail.Sound) (also : more.Sound) : (trail.append more).Sound := by
  rw [Trail.append]
  split
  · refine ⟨sound.root, fun name member => ?_⟩
    rcases List.mem_append.mp member with first | later
    · exact sound.names name first
    · exact also.names name later
  · exact also

theorem Sound.parent {trail : Trail} (sound : trail.Sound) : trail.parent.Sound :=
  ⟨sound.root, fun name member => sound.names name ((List.dropLast_sublist trail.names).mem member)⟩

theorem foldl_namesOf (path : String) (names : List String) :
    (namesOf path).foldl step names = (segments path).foldl step names := by
  rw [namesOf]
  induction segments path generalizing names with
  | nil => rfl
  | cons segment rest ih =>
    rw [List.foldl_cons, ← ih, List.filter_cons]
    split
    · rfl
    · next dropped =>
      have stays : segment = "" ∨ segment = "." := by simpa [or_iff_not_imp_left] using dropped
      rw [step, if_pos stays]

theorem namesOf_segment {segment : String} (plain : IsSegment segment) :
    namesOf segment = if segment = "." then [] else [segment] := by
  rw [namesOf, segments_segment plain]
  by_cases here : segment = "."
  · simp [here]
  · simp [here, plain.present]

theorem foldl_namesOf_segment {segment : String} (plain : IsSegment segment) (names : List String) :
    (namesOf segment).foldl step names = step names segment := by
  rw [foldl_namesOf, segments_segment plain]
  rfl

/-- A path and the trail read from it lead to the same place. -/
theorem along_ofText (place : Location) (path : String) : place.along (ofText path) = place.join path := by
  have root : (ofText path).root = "" ↔ isAbsolute path = false := by
    rw [ofText, rootOf]
    cases rooted : isAbsolute path with
    | true => split <;> simp
    | false => simp [isDoubled_of_relative rooted]
  have names : (ofText path).names = namesOf path := rfl
  rw [Location.along, Location.join, names]
  cases rooted : isAbsolute path with
  | false => simp [root.mpr rooted, foldl_namesOf]
  | true =>
    have given : (ofText path).root ≠ "" := by simp [root, rooted]
    have doubled : decide ((ofText path).root = "//") = isDoubled path := by
      rw [ofText, rootOf, rooted]
      cases isDoubled path <;> simp
    rw [if_neg given, doubled, foldl_namesOf]
    rfl

theorem text_of_rooted {root : String} (rooted : root = "/" ∨ root = "//") (names : List String) :
    Trail.text ⟨root, names⟩ = root ++ "/".intercalate names := by
  apply if_neg
  intro empty
  have list := congrArg String.toList empty
  rcases rooted with rfl | rfl <;> simp at list

theorem text_of_relative {names : List String} (plain : ∀ name ∈ names, IsSegment name) :
    Trail.text ⟨"", names⟩ = if names = [] then "." else "/".intercalate names := by
  rw [Trail.text, String.empty_append]
  by_cases bare : names = []
  · simp [bare]
  · have split := segments_intercalate names (fun name member => (plain name member).noSlash) bare
    rw [if_neg bare, if_neg]
    intro empty
    rw [empty] at split
    have nameless : "" ∈ names := by
      rw [← split]
      exact List.mem_singleton_self ""
    exact (plain "" nameless).present rfl

theorem join_text (place : Location) {trail : Trail} (sound : trail.Sound) : place.join trail.text = place.along trail := by
  obtain ⟨root, names⟩ := trail
  have noSlash : ∀ name ∈ names, '/' ∉ name.toList := fun name member => (sound.names name member).noSlash
  have rooted (doubled : Bool) : place.join (Location.text ⟨doubled, names⟩) = ⟨doubled, names.foldl step []⟩ := by
    rw [Location.join, isAbsolute_text, if_pos rfl, Location.ofText, segments_text_of_plain noSlash, follow_segments_eq,
      Location.text, isDoubled_root doubled (not_isAbsolute_intercalate sound.names)]
  rcases sound.root with bare | single | double
  · dsimp only at bare
    subst bare
    rw [text_of_relative sound.names, Location.along, if_pos rfl, Location.join]
    by_cases none : names = []
    · have here : segments "." = ["."] := segments_segment ⟨by decide, by decide⟩
      simp [none, isAbsolute, here, step]
    · rw [if_neg none, not_isAbsolute_intercalate sound.names, segments_intercalate names noSlash none]
      rfl
  · dsimp only at single
    subst single
    rw [text_of_rooted (Or.inl rfl)]
    exact rooted false
  · dsimp only at double
    subst double
    rw [text_of_rooted (Or.inr rfl)]
    exact rooted true

end Trail

end DeclGraph.Path
