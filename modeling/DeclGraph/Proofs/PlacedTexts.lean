import DeclGraph.Proofs.SafeSaving

/-!
When a text can be put in place. The directories on the way have to be there or free to be made, the temporary
name has to fit, and the target must be no directory. Nothing else refuses it.
-/

namespace DeclGraph.FileTree

section Walking

variable {tree : FileTree} {path : String} {place start : List String}

/-- Whatever lies above a place is a directory. -/
def OpenAbove (tree : FileTree) (place : List String) : Prop :=
  ∀ count < place.length, tree.IsDirectoryAt (place.take count)

theorem openAbove_nil (tree : FileTree) : tree.OpenAbove [] := by
  intro count bounded
  cases bounded

theorem OpenAbove.dropLast (above : tree.OpenAbove place) : tree.OpenAbove place.dropLast := by
  intro count bounded
  rw [List.length_dropLast] at bounded
  rw [List.dropLast_eq_take, List.take_take, Nat.min_eq_left (Nat.le_of_lt bounded)]
  exact above count (by omega)

theorem OpenAbove.directory_dropLast (above : tree.OpenAbove place) : tree.IsDirectoryAt place.dropLast := by
  cases length : place.length with
  | zero =>
    rw [List.length_eq_zero_iff.mp length]
    exact entry?_nil tree
  | succ count =>
    rw [List.dropLast_eq_take, length]
    exact above _ (by omega)

theorem openAbove_concat (directory : tree.IsDirectoryAt start) (above : tree.OpenAbove start) (name : String) :
    tree.OpenAbove (start ++ [name]) := by
  intro count bounded
  rw [List.length_append, List.length_singleton] at bounded
  rw [List.take_append_of_le_length (by omega)]
  rcases Nat.lt_or_eq_of_le (Nat.le_of_lt_succ bounded) with inside | whole
  · exact above count inside
  · rwa [whole, List.take_length]

theorem openAbove_step (directory : tree.IsDirectoryAt start) (above : tree.OpenAbove start) (segment : String) :
    tree.OpenAbove (Path.step start segment) := by
  rw [Path.step]
  split
  · exact above
  · split
    · exact above.dropLast
    · exact openAbove_concat directory above segment

theorem openAbove_walk {segments : List String} (above : tree.OpenAbove start)
    (walked : tree.walk start segments = .ok place) : tree.OpenAbove place := by
  induction segments generalizing start with
  | nil =>
    cases walked
    exact above
  | cons segment rest ih =>
    obtain ⟨directory, _, walked⟩ := walk_cons.mp walked
    exact ih (openAbove_step directory above segment) walked

theorem isDirectoryAt_of_endsUp (placed : tree.place path = .ok place) (up : endsUp path = true) :
    tree.IsDirectoryAt place := by
  have last : (Path.segments path).getLast? = some ".." := by simpa [endsUp] using up
  obtain ⟨front, split⟩ := List.getLast?_eq_some_iff.mp last
  have walked := (place_eq_ok.mp placed).2
  rw [split] at walked
  obtain ⟨middle, first, rest⟩ := walk_append.mp walked
  obtain ⟨_, _, ended⟩ := walk_cons.mp rest
  cases ended
  exact (openAbove_walk (openAbove_nil tree) first).directory_dropLast

theorem checkText_eq_ok : checkText path = .ok () ↔ Text.Nameable path
    ∧ '\x00' ∉ path.toList ∧ path.utf8ByteSize ≤ pathLimit ∧ path ≠ "" := by
  rw [checkText]
  by_cases named : Text.Nameable path
  · rw [if_neg (by simp [Text.unnameable?_eq_none.mpr named])]
    by_cases nul : '\x00' ∈ path.toList
    · simp [nul]
    · by_cases long : pathLimit < path.utf8ByteSize
      · simp [nul, long, Nat.not_le_of_lt long]
      · by_cases bare : path = ""
        · simp [bare, pathLimit]
        · simp [named, nul, long, bare, Nat.le_of_not_lt long]
  · have found : (Text.unnameable? path).isSome = true := by
      rw [← Text.unnameable?_eq_none] at named
      exact Option.isSome_iff_ne_none.mpr named
    simp [named, found]

theorem checkText_front {more : String} (checked : checkText (path ++ more) = .ok ()) (present : path ≠ "") :
    checkText path = .ok () := by
  obtain ⟨named, noNul, short, _⟩ := checkText_eq_ok.mp checked
  rw [Text.nameable_append] at named
  rw [String.toList_append, List.mem_append] at noNul
  rw [String.utf8ByteSize_append] at short
  exact checkText_eq_ok.mpr ⟨named.1, fun nul => noNul (Or.inl nul), by omega, present⟩

theorem isDirectory_above {more : String} {spot : List String}
    (checked : checkText path = .ok ()) (placed : tree.place (path ++ "/" ++ more) = .ok spot) :
    tree.isDirectory path = true := by
  have walked := (place_eq_ok.mp placed).2
  rw [Path.segments_append_slash] at walked
  obtain ⟨middle, first, last⟩ := walk_append.mp walked
  rw [isDirectory_iff, look_eq_ok]
  refine ⟨middle, place_eq_ok.mpr ⟨checked, first⟩, ?_⟩
  cases next : Path.segments more with
  | nil => exact absurd next (Path.segments_ne_nil more)
  | cons segment rest =>
    rw [next] at last
    exact (walk_cons.mp last).1

theorem isDirectory_root {root : String} (rooted : root = "/" ∨ root = "//") (tree : FileTree) :
    tree.isDirectory root = true := by
  have placed : tree.place root = .ok [] := by
    rcases rooted with rfl | rfl
    · rfl
    · rfl
  exact isDirectory_iff.mpr (look_eq_ok.mpr ⟨[], placed, entry?_nil tree⟩)

end Walking

section Directories

variable {tree : FileTree} {path : String}

theorem makeDirectories_there {cwd root : String} {names : List String}
    (directory : tree.isDirectory (fullText cwd ⟨root, names⟩) = true) :
    makeDirectories cwd root names tree = (.ok (), tree) := by
  obtain ⟨place, placed, there⟩ := look_eq_ok.mp (isDirectory_iff.mp directory)
  have refused : tree.makeDirectory (fullText cwd ⟨root, names⟩) = .error .occupied := by
    rw [makeDirectory, placed]
    simp only [bind, Except.bind, there]
    rfl
  unfold makeDirectories
  simp only [refused, directory, if_true]

theorem fullText_of_rooted (cwd : String) {root : String} (rooted : root = "/" ∨ root = "//") (names : List String) :
    fullText cwd ⟨root, names⟩ = Path.Trail.text ⟨root, names⟩ :=
  Path.absolute_of_isAbsolute (isAbsolute_trail rooted names) cwd

theorem isDirectory_parent {trail : Path.Trail} (rooted : trail.root = "/" ∨ trail.root = "//") {place : List String}
    (placed : tree.place trail.text = .ok place) (other : tree.entry? place ≠ some .directory) :
    tree.isDirectory trail.parent.text = true := by
  obtain ⟨root, names⟩ := trail
  simp only at rooted
  rcases List.eq_nil_or_concat names with rfl | ⟨front, last, rfl⟩
  · -- Without names the trail names the root, where no file is.
    have directory : tree.isDirectory (Path.Trail.text ⟨root, []⟩) = true := by
      rw [Path.Trail.text_of_rooted rooted]
      simpa using isDirectory_root rooted tree
    obtain ⟨again, also, there⟩ := look_eq_ok.mp (isDirectory_iff.mp directory)
    cases placed.symm.trans also
    exact absurd there other
  · rw [Path.Trail.parent, List.concat_eq_append, List.dropLast_concat]
    rw [List.concat_eq_append] at placed
    by_cases bare : front = []
    · subst bare
      rw [Path.Trail.text_of_rooted rooted]
      simpa using isDirectory_root rooted tree
    · have spelled : Path.Trail.text ⟨root, front ++ [last]⟩ = Path.Trail.text ⟨root, front⟩ ++ ("/" ++ last) := by
        rw [Path.Trail.text_of_rooted rooted, Path.Trail.text_of_rooted rooted, String.intercalate_append_of_ne_nil bare (by simp)]
        simp [String.append_assoc]
      have present : Path.Trail.text ⟨root, front⟩ ≠ "" := by
        intro empty
        have absolute := isAbsolute_trail rooted front
        rw [empty] at absolute
        cases absolute
      rw [spelled] at placed
      have checked := checkText_front (place_eq_ok.mp placed).1 present
      rw [← String.append_assoc] at placed
      exact isDirectory_above checked placed

end Directories

end DeclGraph.FileTree

namespace DeclGraph.GraphStore

open FileTree

variable {trail : Path.Trail} {world : World} {made : FileTree} {text : String} {spot target : List String}

theorem addsFile_of_room {directory : String} (room : made.place (freshPath made directory) = .ok spot) :
    ∃ opened, made.writeFile (freshPath made directory) .empty = .ok opened
      ∧ AddsFile made opened (freshPath made directory) .empty := by
  have notDirectory : made.entry? spot ≠ some .directory := by simp [free_of_place_freshPath room]
  have opens : made.writeFile (freshPath made directory) .empty = .ok (made.put spot (.file .empty)) :=
    writeFile_eq_ok.mpr ⟨spot, room, notDirectory, rfl⟩
  exact ⟨_, opens, addsFile_writeFile (fun _ => free_of_place_freshPath) opens⟩

/-- A text is put in place once the directories are made, if it has bytes, the temporary name fits and the target is
no directory. -/
theorem place_eq_ok (host : Host) (formed : Text.WellFormed text)
    (ready : FileTree.makeDirectories host.cwd trail.root trail.parent.names world.tree = (.ok (), made))
    (room : made.place (freshPath made trail.parent.text) = .ok spot) (aimed : made.place trail.text = .ok target)
    (other : made.entry? target ≠ some .directory) :
    ∃ after, (place host trail text).outcome world = (.ok (), { world with tree := after })
      ∧ SetsFile made after trail.text text.toUTF8 := by
  obtain ⟨opened, opens, empty⟩ := addsFile_of_room room
  obtain ⟨written, wrote, holds⟩ := empty.rewrite text.toUTF8
  have down : endsUp trail.text = false := by
    apply Bool.eq_false_iff.mpr
    intro up
    exact other (isDirectoryAt_of_endsUp aimed up)
  have still : written.entry? target ≠ some .directory := fun directory => other (holds.setsFile.directoriesBack target directory)
  obtain ⟨_, source, _⟩ := look_eq_ok.mp (read_eq_ok.mp holds.read)
  have replaced := replace_eq_ok.mpr
    ⟨_, _, target, holds.read, source, place_stays holds.setsFile.directoriesStay aimed, down, still, rfl⟩
  refine ⟨_, ?_, holds.replace replaced⟩
  simp only [place, placeWith, Run.outcome_bind, Run.outcome_makeDirectories]
  rw [show trail.parent.root = trail.root from rfl, ready]
  simp only [makeTemporary, moveOver, Run.outcome_bind, Run.outcome_tree, Run.outcome_onTree, opens, Run.outcome_setTree,
    Run.outcome_pure, Run.outcome_onFailure, Run.outcome_writeText, Text.toBytes_of_wellFormed formed, wrote, replaced]

/-- A text without bytes is refused when the temporary file is there to be filled, and that file goes again. -/
theorem place_eq_error (host : Host) {flaw : Text.Unpaired} (flawed : Text.toBytes text = .error flaw)
    (ready : FileTree.makeDirectories host.cwd trail.root trail.parent.names world.tree = (.ok (), made))
    (room : made.place (freshPath made trail.parent.text) = .ok spot) :
    ∃ after, (place host trail text).outcome world = (.error (.unencodable flaw), { world with tree := after })
      ∧ SameEntries made after := by
  obtain ⟨opened, opens, empty⟩ := addsFile_of_room room
  obtain ⟨cleaned, removed, same⟩ := discard_outcome { world with tree := opened } empty
  refine ⟨cleaned, ?_, same⟩
  simp only [place, placeWith, Run.outcome_bind, Run.outcome_makeDirectories]
  rw [show trail.parent.root = trail.root from rfl, ready]
  simp only [makeTemporary, Run.outcome_bind, Run.outcome_tree, Run.outcome_onTree, opens, Run.outcome_setTree,
    Run.outcome_pure, Run.outcome_onFailure, Run.outcome_writeText, flawed, removed]

theorem of_place_eq_ok {host : Host} {trail : Path.Trail} {text : String} {world after : World}
    (ran : (place host trail text).outcome world = (.ok (), after)) : ∃ made spot target,
      FileTree.makeDirectories host.cwd trail.root trail.parent.names world.tree = (.ok (), made)
      ∧ made.place (freshPath made trail.parent.text) = .ok spot ∧ made.place trail.text = .ok target
      ∧ made.entry? target ≠ some .directory := by
  obtain ⟨done, middle, ready, _⟩ := Run.outcome_bind_eq_ok.mp ran
  rw [Run.outcome_makeDirectories] at ready
  split at ready
  · next made directories =>
    obtain ⟨final, bytes, spot, placed, _, sets, room⟩ | ⟨fault, final, failed, _⟩ :=
      placeWith_made (fills_writeText text) directories
    · -- What is a directory in the end was one before, so the target was found without the new file.
      have back := sets.directoriesBack
      obtain ⟨target, aimed, other, _⟩ := sets
      exact ⟨made, spot, target, directories, room, place_stays back aimed, other⟩
    · cases failed.symm.trans ran
  · cases ready

theorem save_of_place {host : Host} {root : String} {trail : Path.Trail} {graph : GraphOperand} {text : String}
    {world after : World} (wrote : Saved.writeOperand host graph (.text root) = .ok text)
    (placed : (place host trail text).outcome world = (.ok (), after)) :
    ∃ journal, (save host (.file root trail) graph).outcome world = (.ok (.file root trail), { after with journal }) := by
  obtain ⟨saved, received⟩ := receiver_of_written wrote
  simp only [save, GraphStore.root, Run.outcome_bind, Run.outcome_ofExcept, wrote, placed, received]
  exact ⟨_, rfl⟩

theorem save_of_refused {host : Host} {root : String} {trail : Path.Trail} {graph : GraphOperand} {text : String}
    {fault : Fault} {world after : World} (wrote : Saved.writeOperand host graph (.text root) = .ok text)
    (refused : (place host trail text).outcome world = (.error fault, after)) :
    (save host (.file root trail) graph).outcome world = (.error fault, after) := by
  simp only [save, GraphStore.root, Run.outcome_bind, Run.outcome_ofExcept, wrote, refused]

end DeclGraph.GraphStore
