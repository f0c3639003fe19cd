import DeclGraph.Proofs.PlacedTexts

/-!
Canonical paths in a file tree. Such a path goes from name to name, so it leads where its names say once what lies
above is a directory, and what it finds depends on the entries under its own beginnings alone.
-/

namespace DeclGraph.Path.Location

def trail (location : Location) : Trail := ⟨if location.doubled then "//" else "/", location.names⟩

theorem rooted_trail (location : Location) : location.trail.root = "/" ∨ location.trail.root = "//" := by
  rw [trail]
  cases location.doubled
  · exact Or.inl rfl
  · exact Or.inr rfl

theorem trail_text (location : Location) : location.trail.text = location.text :=
  Trail.text_of_rooted location.rooted_trail location.names

end DeclGraph.Path.Location

namespace DeclGraph.FileTree

open DeclGraph.Path (IsName Location)

section Names

variable {tree other : FileTree} {names start place : List String}

theorem walk_root_empty (tree : FileTree) (rest : List String) : tree.walk [] ("" :: rest) = tree.walk [] rest := by
  rw [walk]
  rfl

theorem place_text {location : Location} (proper : location.Proper) :
    tree.place location.text = checkText location.text >>= fun _ => tree.walk [] location.names := by
  obtain ⟨doubled, names⟩ := location
  rw [FileTree.place, Path.segments_text proper]
  congr 1
  funext _
  cases names with
  | nil => cases doubled <;> simp [Location.segments, walk_root_empty]
  | cons name rest => cases doubled <;> simp [Location.segments, walk_root_empty]

theorem walk_names (named : ∀ name ∈ names, IsName name) : tree.walk start names = .ok place ↔ place = start ++ names
    ∧ (∀ count < names.length, tree.IsDirectoryAt (start ++ names.take count))
    ∧ ∀ name ∈ names, name.utf8ByteSize ≤ nameLimit := by
  induction names generalizing start with
  | nil =>
    rw [walk]
    simp [eq_comm]
  | cons name rest ih =>
    rw [walk_cons, Path.step_name (named name List.mem_cons_self), ih fun other member => named other (List.mem_cons_of_mem _ member)]
    constructor
    · rintro ⟨directory, short, rfl, directories, others⟩
      refine ⟨by simp, ?_, ?_⟩
      · rintro (_ | count) bounded
        · simpa using directory
        · simpa using directories count (by simpa using bounded)
      · rintro next member
        rcases List.mem_cons.mp member with rfl | later
        · exact short
        · exact others next later
    · rintro ⟨rfl, directories, short⟩
      refine ⟨by simpa using directories 0 (by simp), short name List.mem_cons_self, by simp, ?_, ?_⟩
      · intro count bounded
        simpa using directories (count + 1) (by simpa using bounded)
      · exact fun next member => short next (List.mem_cons_of_mem _ member)

theorem walk_congr (named : ∀ name ∈ names, IsName name)
    (same : ∀ count < names.length, other.entry? (start ++ names.take count) = tree.entry? (start ++ names.take count)) :
    other.walk start names = tree.walk start names := by
  induction names generalizing start with
  | nil => rfl
  | cons name rest ih =>
    have here : other.entry? start = tree.entry? start := by simpa using same 0 (by simp)
    have later := @ih (start ++ [name]) (fun next member => named next (List.mem_cons_of_mem _ member)) (by
      intro count bounded
      simpa using same (count + 1) (by simpa using bounded))
    rw [walk, walk, enter, enter, here, Path.step_name (named name List.mem_cons_self), later]

/-- Where no file is in the way, names lead somewhere or a directory is missing. -/
theorem walk_names_or_missing (start : List String) (named : ∀ name ∈ names, IsName name)
    (free : ∀ count < names.length, tree.entry? (start ++ names.take count) = none
      ∨ tree.IsDirectoryAt (start ++ names.take count))
    (short : ∀ name ∈ names, name.utf8ByteSize ≤ nameLimit) :
    tree.walk start names = .ok (start ++ names) ∨ tree.walk start names = .error .missing := by
  induction names generalizing start with
  | nil =>
    rw [walk]
    simp
  | cons name rest ih =>
    have later := @ih (start ++ [name]) (fun next member => named next (List.mem_cons_of_mem _ member))
      (by
        intro count bounded
        simpa using free (count + 1) (by simpa using bounded))
      fun next member => short next (List.mem_cons_of_mem _ member)
    have first : tree.entry? start = none ∨ tree.IsDirectoryAt start := by simpa using free 0 (by simp)
    rw [walk, enter]
    rcases first with missing | directory
    · rw [missing]
      exact Or.inr rfl
    · rw [show tree.entry? start = some .directory from directory, Path.step_name (named name List.mem_cons_self)]
      simp only [Nat.not_lt_of_le (short name List.mem_cons_self), if_false]
      simpa using later

end Names

section Locations

variable {tree other : FileTree} {location : Location} {place : List String}

/-- A path and its names are no longer than a tree allows. -/
structure Fits (location : Location) : Prop where
  text : checkText location.text = .ok ()
  names : ∀ name ∈ location.names, name.utf8ByteSize ≤ nameLimit

theorem Fits.above {doubled : Bool} {names : List String} {name : String} (fits : Fits ⟨doubled, names ++ [name]⟩) :
    Fits ⟨doubled, names⟩ where
  text := by
    have whole := fits.text
    rw [Path.text_append_name, String.append_assoc] at whole
    apply checkText_front whole
    intro empty
    have absolute := Path.isAbsolute_text ⟨doubled, names⟩
    rw [empty] at absolute
    cases absolute
  names := fun other member => fits.names other (List.mem_append_left _ member)

theorem place_text_eq_ok (proper : location.Proper) :
    tree.place location.text = .ok place ↔ place = location.names ∧ Fits location ∧ tree.OpenAbove location.names := by
  rw [place_text proper, bind_eq_ok]
  simp only [walk_names proper, List.nil_append]
  constructor
  · rintro ⟨_, checked, same, above, short⟩
    exact ⟨same, ⟨checked, short⟩, above⟩
  · rintro ⟨same, fits, above⟩
    exact ⟨(), fits.text, same, above, fits.names⟩

theorem look_text_eq_ok (proper : location.Proper) {entry : FileEntry} : tree.look location.text = .ok entry ↔
    tree.entry? location.names = some entry ∧ Fits location ∧ tree.OpenAbove location.names := by
  simp only [look_eq_ok, place_text_eq_ok proper]
  constructor
  · rintro ⟨_, ⟨rfl, fits, above⟩, there⟩
    exact ⟨there, fits, above⟩
  · rintro ⟨there, fits, above⟩
    exact ⟨_, ⟨rfl, fits, above⟩, there⟩

theorem look_congr (proper : location.Proper)
    (same : ∀ count ≤ location.names.length, other.entry? (location.names.take count) = tree.entry? (location.names.take count)) :
    other.look location.text = tree.look location.text := by
  have walks : other.walk [] location.names = tree.walk [] location.names :=
    walk_congr proper fun count bounded => same count (Nat.le_of_lt bounded)
  have last := same location.names.length (Nat.le_refl _)
  rw [List.take_length] at last
  rw [look, look, place_text proper, place_text proper, walks]
  cases checkText location.text with
  | error fault => rfl
  | ok done =>
    cases walked : tree.walk [] location.names with
    | error fault =>
      simp only [bind, Except.bind]
    | ok place =>
      obtain ⟨rfl, _⟩ := (walk_names proper).mp walked
      simp only [bind, Except.bind, List.nil_append, last]

theorem look_text_or_missing (proper : location.Proper) (fits : Fits location)
    (free : ∀ count < location.names.length, tree.entry? (location.names.take count) = none
      ∨ tree.IsDirectoryAt (location.names.take count)) :
    (∃ entry, tree.look location.text = .ok entry) ∨ tree.look location.text = .error .missing := by
  unfold look
  rw [place_text proper, fits.text]
  rcases walk_names_or_missing [] proper free fits.names with walked | walked
  · simp only [bind, Except.bind, walked, List.nil_append]
    cases tree.entry? location.names with
    | none => exact Or.inr rfl
    | some entry => exact Or.inl ⟨entry, rfl⟩
  · simp only [bind, Except.bind, walked, reduceCtorEq, exists_false, or_true]

theorem makeDirectory_text (proper : location.Proper) (fits : Fits location) (above : tree.OpenAbove location.names)
    (free : tree.entry? location.names = none ∨ tree.IsDirectoryAt location.names) :
    (∃ made, tree.makeDirectory location.text = .ok made ∧ made.OpenAbove location.names
        ∧ made.IsDirectoryAt location.names)
      ∨ tree.makeDirectory location.text = .error .occupied ∧ tree.isDirectory location.text = true
        ∧ tree.IsDirectoryAt location.names := by
  have placed := (place_text_eq_ok proper).mpr ⟨rfl, fits, above⟩
  rcases free with missing | directory
  · have other : tree.entry? location.names ≠ some .directory := by simp [missing]
    refine Or.inl ⟨_, makeDirectory_eq_ok.mpr ⟨location.names, placed, missing, rfl⟩, ?_, ?_⟩
    · intro count bounded
      exact directoriesStay_put other _ _ (above count bounded)
    · rw [IsDirectoryAt, entry?_put _ (ne_nil_of_not_directory other), if_pos rfl]
  · refine Or.inr ⟨?_, isDirectory_iff.mpr (look_eq_ok.mpr ⟨location.names, placed, directory⟩), directory⟩
    rw [makeDirectory, placed]
    simp only [bind, Except.bind, show tree.entry? location.names = some .directory from directory]
    rfl

theorem ensureDirectory_text (proper : location.Proper) (fits : Fits location) (above : tree.OpenAbove location.names)
    (free : tree.entry? location.names = none ∨ tree.IsDirectoryAt location.names) :
    ∃ made, tree.ensureDirectory location.text = .ok made ∧ made.OpenAbove location.names
      ∧ made.IsDirectoryAt location.names := by
  rw [ensureDirectory]
  obtain ⟨made, ran, opened, directory⟩ | ⟨ran, there, directory⟩ := makeDirectory_text proper fits above free
  · rw [ran]
    exact ⟨made, rfl, opened, directory⟩
  · rw [ran]
    simp only [there, if_true]
    exact ⟨tree, rfl, above, directory⟩

theorem fullText_location (cwd : String) (location : Location) :
    fullText cwd ⟨location.trail.root, location.names⟩ = location.text :=
  (fullText_of_rooted cwd location.rooted_trail location.names).trans location.trail_text

theorem makeDirectories_of_above (cwd : String) (proper : location.Proper) (fits : Fits location)
    (above : tree.OpenAbove location.names) (free : tree.entry? location.names = none ∨ tree.IsDirectoryAt location.names) :
    ∃ made, makeDirectories cwd location.trail.root location.names tree = (.ok (), made)
      ∧ made.OpenAbove location.names ∧ made.IsDirectoryAt location.names := by
  unfold makeDirectories
  simp only [fullText_location cwd location]
  obtain ⟨made, ran, opened, directory⟩ | ⟨ran, there, directory⟩ := makeDirectory_text proper fits above free
  · rw [ran]
    exact ⟨made, rfl, opened, directory⟩
  · rw [ran]
    simp only [there, if_true]
    exact ⟨tree, rfl, above, directory⟩

/-- Directories can be made where no file is in the way. -/
theorem makeDirectories_isOk (cwd : String) (proper : location.Proper) (fits : Fits location)
    (free : ∀ count ≤ location.names.length, tree.entry? (location.names.take count) = none
      ∨ tree.IsDirectoryAt (location.names.take count)) :
    ∃ made, makeDirectories cwd location.trail.root location.names tree = (.ok (), made)
      ∧ made.OpenAbove location.names ∧ made.IsDirectoryAt location.names := by
  obtain ⟨doubled, names⟩ := location
  induction length : names.length generalizing names with
  | zero =>
    obtain rfl := List.length_eq_zero_iff.mp length
    exact makeDirectories_of_above cwd proper fits (openAbove_nil tree) (Or.inr (entry?_nil tree))
  | succ count ih =>
    rcases List.eq_nil_or_concat names with rfl | ⟨front, last, rfl⟩
    · cases length
    rw [List.concat_eq_append] at *
    have whole : tree.entry? (front ++ [last]) = none ∨ tree.IsDirectoryAt (front ++ [last]) := by
      have all := free (front ++ [last]).length (Nat.le_refl _)
      rwa [List.take_length] at all
    rcases walk_names_or_missing [] proper (fun count bounded => free count (Nat.le_of_lt bounded)) fits.names
      with walked | missing
    · exact makeDirectories_of_above cwd proper fits ((walk_names proper).mp walked).2.1 whole
    · -- The directory above is made first, and nothing is in the way of the last one after that.
      have ran : tree.makeDirectory (Location.text ⟨doubled, front ++ [last]⟩) = .error .missing := by
        rw [makeDirectory, place_text proper, fits.text]
        simp only [bind, Except.bind, missing]
      obtain ⟨above, made, opened, directory⟩ := ih front (fun name member => proper name (List.mem_append_left _ member))
        fits.above
        (by
          intro count bounded
          simp only at bounded
          have taken := free count (by rw [List.length_append]; omega)
          rwa [List.take_append_of_le_length bounded] at taken)
        (by simpa using length)
      have still : above.entry? (front ++ [last]) = none ∨ above.IsDirectoryAt (front ++ [last]) := by
        have adds := addsDirectories_makeDirectories cwd (Location.mk doubled front).rooted_trail front tree
        rw [made] at adds
        rcases adds (front ++ [last]) with same | ⟨_, grown, _⟩
        · rwa [IsDirectoryAt, same]
        · exact Or.inr grown
      obtain ⟨final, ensured, opened, directory⟩ :=
        ensureDirectory_text proper fits (openAbove_concat directory opened last) still
      unfold makeDirectories
      simp only [fullText_location cwd ⟨doubled, front ++ [last]⟩]
      rw [show (Location.mk doubled (front ++ [last])).trail.root = (Location.mk doubled front).trail.root from rfl, ran]
      simp only [List.append_eq_nil_iff, List.cons_ne_nil, and_false, dite_false, List.dropLast_concat, made, ensured]
      exact ⟨final, rfl, opened, directory⟩

end Locations

end DeclGraph.FileTree
