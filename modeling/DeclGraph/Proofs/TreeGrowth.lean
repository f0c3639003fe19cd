import Mathlib.Data.List.Induction
import DeclGraph.FileTree.Basic
import DeclGraph.Proofs.Outcomes

/-!
How operations change a file tree, place by place. Paths go through directories only, so a path keeps its
place as long as no directory is lost. Making directories, even when it is refused half way, changes
nothing but free places on the way, which become directories.
-/

namespace DeclGraph.FileTree

section Places

variable {tree before after later : FileTree} {place : List String}

theorem entry?_nil (tree : FileTree) : tree.entry? [] = some .directory := rfl

theorem entry?_of_ne_nil (tree : FileTree) (below : place ≠ []) :
    tree.entry? place = (tree.entries.find? fun entry => entry.1 = place).map (·.2) := by
  rw [ entry?, if_neg (by simpa using below)]

theorem entry?_erase (tree : FileTree) (below : place ≠ []) (other : List String) :
    FileTree.entry? (tree.erase place) other = if other = place then none else tree.entry? other := by
  by_cases bare : other = []
  · subst bare
    rw [if_neg (Ne.symm below), entry?_nil, entry?_nil]
  · rw [entry?_of_ne_nil _ bare, entry?_of_ne_nil _ bare, erase, List.find?_filter]
    by_cases same : other = place
    · subst same
      simp
    · rw [if_neg same]
      congr 2
      funext entry
      by_cases hit : entry.1 = other
      · simp [hit, same]
      · simp [hit]

theorem entry?_put (tree : FileTree) (below : place ≠ []) (entry : FileEntry) (other : List String) :
    FileTree.entry? (tree.put place entry) other = if other = place then some entry else tree.entry? other := by
  by_cases bare : other = []
  · subst bare
    rw [if_neg (Ne.symm below), entry?_nil, entry?_nil]
  · have erased := tree.entry?_erase below other
    rw [entry?_of_ne_nil _ bare] at erased
    rw [entry?_of_ne_nil _ bare, put, List.find?_cons]
    by_cases same : other = place
    · simp [same]
    · simp only [Ne.symm same, decide_false, same, ↓reduceIte] at erased ⊢
      exact erased

theorem ne_nil_of_not_directory (other : tree.entry? place ≠ some .directory) : place ≠ [] := by
  rintro rfl
  exact other (entry?_nil tree)

def SameEntries (before after : FileTree) : Prop := ∀ place, after.entry? place = before.entry? place

def DirectoriesStay (before after : FileTree) : Prop :=
  ∀ place, before.IsDirectoryAt place → after.IsDirectoryAt place

def FilesStay (before after : FileTree) : Prop :=
  ∀ place content, before.entry? place = some (.file content) →
    ∃ replaced, after.entry? place = some (.file replaced)

def Closed (tree : FileTree) : Prop :=
  ∀ place name, tree.entry? (place ++ [name]) ≠ none → tree.IsDirectoryAt place

theorem Closed.prefix (closed : tree.Closed) {more : List String} (present : tree.entry? (place ++ more) ≠ none)
    (some : more ≠ []) : tree.IsDirectoryAt place := by
  induction more using List.reverseRecOn with
  | nil => exact absurd rfl some
  | append_singleton more name ih =>
    rw [← List.append_assoc] at present
    have above := closed _ _ present
    by_cases bare : more = []
    · rwa [bare, List.append_nil] at above
    · exact ih (by simp [show tree.entry? (place ++ more) = _ from above]) bare

theorem directoriesStay_put (other : tree.entry? place ≠ some .directory) (entry : FileEntry) :
    DirectoriesStay tree (tree.put place entry) := by
  intro elsewhere directory
  have different : elsewhere ≠ place := by
    rintro rfl
    exact other directory
  rw [IsDirectoryAt, entry?_put _ (ne_nil_of_not_directory other), if_neg different]
  exact directory

end Places

section Paths

variable {tree before after : FileTree} {path : String} {place : List String}

theorem enter_eq_ok : tree.enter place = .ok () ↔ tree.IsDirectoryAt place := by
  rw [enter, IsDirectoryAt]
  split
  · simp_all
  · simp_all
  · simp_all

theorem walk_cons {segment : String} {rest start : List String} :
    tree.walk start (segment :: rest) = .ok place ↔
      tree.IsDirectoryAt start ∧ segment.utf8ByteSize ≤ nameLimit
        ∧ tree.walk (Path.step start segment) rest = .ok place := by
  rw [walk, ← enter_eq_ok]
  cases tree.enter start with
  | error fault => simp
  | ok entered =>
    by_cases long : nameLimit < segment.utf8ByteSize
    · simp [long, Nat.not_le_of_lt long]
    · simp [long, Nat.le_of_not_lt long]

theorem walk_append {front back start : List String} :
    tree.walk start (front ++ back) = .ok place ↔
      ∃ middle, tree.walk start front = .ok middle ∧ tree.walk middle back = .ok place := by
  induction front generalizing start with
  | nil => simp [walk]
  | cons segment rest ih =>
    rw [List.cons_append, walk_cons, ih]
    simp only [walk_cons]
    constructor
    · rintro ⟨directory, short, middle, first, second⟩
      exact ⟨middle, ⟨directory, short, first⟩, second⟩
    · rintro ⟨middle, ⟨directory, short, first⟩, second⟩
      exact ⟨directory, short, middle, first, second⟩

theorem walk_stays (stay : DirectoriesStay before after) {segments start : List String}
    (walked : before.walk start segments = .ok place) : after.walk start segments = .ok place := by
  induction segments generalizing start with
  | nil => exact walked
  | cons segment rest ih =>
    rw [walk_cons] at walked ⊢
    exact ⟨stay start walked.1, walked.2.1, ih walked.2.2⟩

theorem place_eq_ok :
    tree.place path = .ok place ↔ checkText path = .ok () ∧ tree.walk [] (Path.segments path) = .ok place := by
  rw [FileTree.place, bind_eq_ok]
  constructor
  · rintro ⟨_, checked, walked⟩
    exact ⟨checked, walked⟩
  · rintro ⟨checked, walked⟩
    exact ⟨(), checked, walked⟩

theorem place_stays (stay : DirectoriesStay before after) (placed : before.place path = .ok place) :
    after.place path = .ok place := by
  rw [place_eq_ok] at placed ⊢
  exact ⟨placed.1, walk_stays stay placed.2⟩

theorem look_eq_ok {entry : FileEntry} :
    tree.look path = .ok entry ↔ ∃ place, tree.place path = .ok place ∧ tree.entry? place = some entry := by
  rw [look, bind_eq_ok]
  constructor
  · rintro ⟨place, placed, found⟩
    refine ⟨place, placed, ?_⟩
    split at found
    next other there => exact (Except.ok.inj found) ▸ there
    next => cases found
  · rintro ⟨place, placed, there⟩
    refine ⟨place, placed, ?_⟩
    rw [there]
    rfl

theorem isFile_iff : tree.isFile path = true ↔ ∃ content, tree.look path = .ok (.file content) := by
  rw [isFile]
  split
  next content found => simp [found]
  next other =>
    constructor
    · intro impossible
      cases impossible
    · rintro ⟨content, found⟩
      exact absurd found (other content)

theorem isDirectory_iff : tree.isDirectory path = true ↔ tree.look path = .ok .directory := by
  rw [isDirectory]
  split
  next found => simp [found]
  next other =>
    constructor
    · intro impossible
      cases impossible
    · intro found
      exact absurd found other

theorem isFile_stays (directories : DirectoriesStay before after) (files : FilesStay before after)
    (there : before.isFile path = true) : after.isFile path = true := by
  obtain ⟨content, found⟩ := isFile_iff.mp there
  obtain ⟨place, placed, entry⟩ := look_eq_ok.mp found
  obtain ⟨replaced, kept⟩ := files place content entry
  exact isFile_iff.mpr ⟨replaced, look_eq_ok.mpr ⟨place, place_stays directories placed, kept⟩⟩

theorem read_eq_ok {content : ByteArray} :
    tree.read path = .ok content ↔ tree.look path = .ok (.file content) := by
  rw [read, bind_eq_ok]
  constructor
  · rintro ⟨entry, found, given⟩
    cases entry with
    | directory => cases given
    | file bytes =>
      cases given
      exact found
  · intro found
    exact ⟨_, found, rfl⟩

end Paths

section Writing

variable {tree : FileTree} {path : String}

theorem makeDirectory_eq_ok {made : FileTree} :
    tree.makeDirectory path = .ok made ↔
      ∃ place, tree.place path = .ok place ∧ tree.entry? place = none ∧ made = tree.put place .directory := by
  rw [makeDirectory, bind_eq_ok]
  constructor
  · rintro ⟨place, placed, given⟩
    refine ⟨place, placed, ?_⟩
    split at given
    next => cases given
    next free =>
      cases given
      exact ⟨free, rfl⟩
  · rintro ⟨place, placed, free, rfl⟩
    refine ⟨place, placed, ?_⟩
    rw [free]
    rfl

theorem writeFile_eq_ok {content : ByteArray} {written : FileTree} :
    tree.writeFile path content = .ok written ↔ ∃ place, tree.place path = .ok place
      ∧ tree.entry? place ≠ some .directory ∧ written = tree.put place (.file content) := by
  rw [writeFile, bind_eq_ok]
  constructor
  · rintro ⟨place, placed, given⟩
    refine ⟨place, placed, ?_⟩
    split at given
    next => cases given
    next other =>
      cases given
      exact ⟨fun directory => other directory, rfl⟩
  · rintro ⟨place, placed, other, rfl⟩
    refine ⟨place, placed, ?_⟩
    split
    next directory => exact absurd directory other
    next => rfl

theorem replace_eq_ok {source target : String} {replaced : FileTree} :
    tree.replace source target = .ok replaced ↔ ∃ content sourcePlace place, tree.read source = .ok content
      ∧ tree.place source = .ok sourcePlace ∧ tree.place target = .ok place ∧ endsUp target = false
      ∧ tree.entry? place ≠ some .directory
      ∧ replaced = (tree.erase sourcePlace).put place (.file content) := by
  simp only [replace, bind_eq_ok]
  constructor
  · rintro ⟨content, readAs, sourcePlace, sourcePlaced, place, placed, given⟩
    refine ⟨content, sourcePlace, place, readAs, sourcePlaced, placed, ?_⟩
    by_cases up : endsUp target = true
    · rw [if_pos up] at given
      cases given
    · rw [if_neg up] at given
      split at given
      next => cases given
      next other =>
        cases given
        exact ⟨Bool.eq_false_iff.mpr up, fun directory => other directory, rfl⟩
  · rintro ⟨content, sourcePlace, place, readAs, sourcePlaced, placed, down, other, rfl⟩
    refine ⟨content, readAs, sourcePlace, sourcePlaced, place, placed, ?_⟩
    rw [if_neg (by simp [down])]
    split
    next directory => exact absurd directory other
    next => rfl

theorem unlink_of_file {place : List String} {content : ByteArray} (placed : tree.place path = .ok place)
    (there : tree.entry? place = some (.file content)) : tree.unlink path = .ok (tree.erase place) := by
  rw [unlink, bind_eq_ok]
  refine ⟨place, placed, ?_⟩
  rw [there]
  rfl

end Writing

section Growing

variable {before middle after : FileTree} {trail : Path.Trail}

def OnWay (tree : FileTree) (trail : Path.Trail) (place : List String) : Prop :=
  ∃ count ≤ trail.names.length,
    tree.place (Path.Trail.text ⟨trail.root, trail.names.take count⟩) = .ok place

/-- Every place is as it was, but free places on the way of a trail may have become directories. -/
def AddsDirectories (before after : FileTree) (trail : Path.Trail) : Prop :=
  ∀ place, after.entry? place = before.entry? place
    ∨ before.entry? place = none ∧ after.IsDirectoryAt place ∧ after.OnWay trail place

theorem OnWay.stays (stay : DirectoriesStay before after) {place : List String}
    (onWay : before.OnWay trail place) : after.OnWay trail place := by
  obtain ⟨count, bounded, placed⟩ := onWay
  exact ⟨count, bounded, place_stays stay placed⟩

theorem OnWay.longer {root : String} {names : List String} {tree : FileTree} {place : List String}
    (onWay : tree.OnWay ⟨root, names.dropLast⟩ place) : tree.OnWay ⟨root, names⟩ place := by
  obtain ⟨count, bounded, placed⟩ := onWay
  rw [List.length_dropLast] at bounded
  refine ⟨count, Nat.le_trans bounded (Nat.sub_le _ _), ?_⟩
  rw [List.dropLast_eq_take, List.take_take, Nat.min_eq_left bounded] at placed
  exact placed

namespace AddsDirectories

theorem refl (tree : FileTree) (trail : Path.Trail) : AddsDirectories tree tree trail :=
  fun _ => Or.inl rfl

theorem directoriesStay (adds : AddsDirectories before after trail) : DirectoriesStay before after := by
  intro place directory
  rcases adds place with same | ⟨free, _⟩
  · rw [IsDirectoryAt, same]
    exact directory
  · exact absurd (free.symm.trans directory) (by simp)

theorem sameFiles (adds : AddsDirectories before after trail) (place : List String) (content : ByteArray) :
    after.entry? place = some (.file content) ↔ before.entry? place = some (.file content) := by
  rcases adds place with same | ⟨free, directory, _⟩
  · rw [same]
  · rw [free, show after.entry? place = some .directory from directory]
    simp

theorem trans (first : AddsDirectories before middle trail) (second : AddsDirectories middle after trail) :
    AddsDirectories before after trail := by
  intro place
  rcases second place with same | ⟨free, directory, onWay⟩
  · rcases first place with still | ⟨free, directory, onWay⟩
    · exact Or.inl (same.trans still)
    · exact Or.inr ⟨free, second.directoriesStay place directory, onWay.stays second.directoriesStay⟩
  · rcases first place with still | ⟨_, taken, _⟩
    · exact Or.inr ⟨still.symm.trans free, directory, onWay⟩
    · exact absurd (free.symm.trans taken) (by simp)

theorem of_sameEntries (adds : AddsDirectories before middle trail) (same : SameEntries middle after) :
    AddsDirectories before after trail := by
  apply adds.trans
  exact fun place => Or.inl (same place)

theorem longer {root : String} {names : List String} (adds : AddsDirectories before after ⟨root, names.dropLast⟩) :
    AddsDirectories before after ⟨root, names⟩ := by
  intro place
  rcases adds place with same | ⟨free, directory, onWay⟩
  · exact Or.inl same
  · exact Or.inr ⟨free, directory, onWay.longer⟩

end AddsDirectories

theorem addsDirectories_makeDirectory (made : before.makeDirectory trail.text = .ok after) :
    AddsDirectories before after trail := by
  obtain ⟨spot, placed, free, rfl⟩ := makeDirectory_eq_ok.mp made
  have below : spot ≠ [] := by
    apply ne_nil_of_not_directory
    rw [free]
    simp
  have stay : DirectoriesStay before (before.put spot .directory) := directoriesStay_put (by simp [free]) _
  intro place
  by_cases same : place = spot
  · subst same
    refine Or.inr ⟨free, ?_, trail.names.length, Nat.le_refl _, ?_⟩
    · rw [IsDirectoryAt, entry?_put _ below, if_pos rfl]
    · rw [List.take_length]
      exact place_stays stay placed
  · exact Or.inl (by rw [entry?_put _ below, if_neg same])

theorem addsDirectories_ensureDirectory (ensured : before.ensureDirectory trail.text = .ok after) :
    AddsDirectories before after trail := by
  unfold ensureDirectory at ensured
  split at ensured
  next made given =>
    cases ensured
    exact addsDirectories_makeDirectory given
  next =>
    split at ensured
    · cases ensured
      exact .refl _ _
    · cases ensured

theorem isAbsolute_trail {root : String} (rooted : root = "/" ∨ root = "//") (names : List String) :
    Path.isAbsolute (Path.Trail.text ⟨root, names⟩) = true := by
  rcases rooted with rfl | rfl <;> simp [Path.Trail.text, Path.isAbsolute]

/-- Whether or not it is refused in the end, making directories only adds some on the way. -/
theorem addsDirectories_makeDirectories (cwd : String) {root : String} (rooted : root = "/" ∨ root = "//")
    (names : List String) (tree : FileTree) :
    AddsDirectories tree (makeDirectories cwd root names tree).2 ⟨root, names⟩ := by
  have spelled (names : List String) : fullText cwd ⟨root, names⟩ = Path.Trail.text ⟨root, names⟩ := by
    simp [fullText, Path.absolute, Path.joinTo, isAbsolute_trail rooted]
  -- The directories above are made first, so the induction goes down the number of names.
  induction count : names.length generalizing names with
  | zero =>
    have bare : names = [] := List.length_eq_zero_iff.mp count
    subst bare
    unfold makeDirectories
    simp only [spelled]
    split
    next made given => exact addsDirectories_makeDirectory given
    next => exact .refl _ _
    next => exact .refl _ _
  | succ count ih =>
    have some : names ≠ [] := by
      rintro rfl
      cases count
    have above := ih names.dropLast (by rw [List.length_dropLast]; omega)
    unfold makeDirectories
    simp only [spelled]
    split
    next made given => exact addsDirectories_makeDirectory given
    next =>
      rw [dif_neg some]
      cases result : makeDirectories cwd root names.dropLast tree with
      | mk outcome grown =>
        rw [result] at above
        cases outcome with
        | error fault => exact above.longer
        | ok done =>
          cases ensured : grown.ensureDirectory (Path.Trail.text ⟨root, names⟩) with
          | error fault => simpa [ensured] using above.longer
          | ok made =>
            simp only [ensured]
            exact above.longer.trans (addsDirectories_ensureDirectory ensured)
    next => exact .refl _ _

end Growing

section Effects

variable {before middle after : FileTree} {trail : Path.Trail} {content : ByteArray}

/-- One place gets a file, by the path that leads there, and no other place changes. -/
def SetsFile (before after : FileTree) (path : String) (content : ByteArray) : Prop :=
  ∃ spot, after.place path = .ok spot ∧ before.entry? spot ≠ some .directory
    ∧ ∀ place, after.entry? place = if place = spot then some (.file content) else before.entry? place

theorem SetsFile.directoriesStay {path : String} (sets : SetsFile before after path content) :
    DirectoriesStay before after := by
  obtain ⟨spot, _, other, entries⟩ := sets
  intro place directory
  have different : place ≠ spot := by
    rintro rfl
    exact other directory
  rw [IsDirectoryAt, entries, if_neg different]
  exact directory

theorem SetsFile.directoriesBack {path : String} (sets : SetsFile before after path content) :
    DirectoriesStay after before := by
  obtain ⟨spot, _, _, entries⟩ := sets
  intro place directory
  rw [IsDirectoryAt, entries] at directory
  split at directory
  · cases directory
  · exact directory

/-- No file is changed, added or lost. New directories lie on the way of a trail and hold no file. -/
structure LeavesFiles (before after : FileTree) (trail : Path.Trail) : Prop where
  files : ∀ place content, after.entry? place = some (.file content) ↔ before.entry? place = some (.file content)
  added : AddsDirectories before after trail
  empty : before.Closed → ∀ place, before.entry? place = none → after.IsDirectoryAt place →
    ∀ more content, after.entry? (place ++ more) ≠ some (.file content)

theorem leavesFiles_of_adds (adds : AddsDirectories before after trail) : LeavesFiles before after trail where
  files := adds.sameFiles
  added := adds
  empty := by
    intro closed place free directory more content file
    have present : before.entry? (place ++ more) = some (.file content) :=
      (adds.sameFiles _ content).mp file
    by_cases bare : more = []
    · rw [bare, List.append_nil, free] at present
      cases present
    · have above : before.IsDirectoryAt place := by
        apply closed.prefix _ bare
        simp [present]
      exact absurd (free.symm.trans above) (by simp)

/-- The place that a trail leads to holds a content. Nothing else changed but that directories were added on
the way to it. -/
def ChangesOnly (before after : FileTree) (trail : Path.Trail) (content : ByteArray) : Prop :=
  ∃ spot, after.place trail.text = .ok spot ∧ after.entry? spot = some (.file content)
    ∧ before.entry? spot ≠ some .directory
    ∧ ∀ place, place ≠ spot → after.entry? place = before.entry? place
      ∨ before.entry? place = none ∧ after.IsDirectoryAt place ∧ after.OnWay trail.parent place

theorem ChangesOnly.directoriesStay (changes : ChangesOnly before after trail content) :
    DirectoriesStay before after := by
  obtain ⟨spot, _, _, other, entries⟩ := changes
  intro place directory
  have different : place ≠ spot := by
    rintro rfl
    exact other directory
  rcases entries place different with same | ⟨free, _⟩
  · rw [IsDirectoryAt, same]
    exact directory
  · exact absurd (free.symm.trans directory) (by simp)

theorem ChangesOnly.filesStay (changes : ChangesOnly before after trail content) : FilesStay before after := by
  obtain ⟨spot, _, placed, _, entries⟩ := changes
  intro place old file
  by_cases hit : place = spot
  · subst hit
    exact ⟨content, placed⟩
  · rcases entries place hit with same | ⟨free, _⟩
    · exact ⟨old, same.trans file⟩
    · exact absurd (free.symm.trans file) (by simp)

theorem changesOnly_of_sets (adds : AddsDirectories before middle trail.parent)
    (sets : SetsFile middle after trail.text content) : ChangesOnly before after trail content := by
  have stay := sets.directoriesStay
  obtain ⟨spot, placed, other, entries⟩ := sets
  refine ⟨spot, placed, ?_, ?_, ?_⟩
  · rw [entries, if_pos rfl]
  · intro directory
    exact other (adds.directoriesStay spot directory)
  · intro place different
    rw [entries, if_neg different]
    rcases adds place with same | ⟨free, directory, onWay⟩
    · exact Or.inl same
    · exact Or.inr ⟨free, stay place directory, onWay.stays stay⟩

end Effects

end DeclGraph.FileTree
