import Mathlib.Data.List.Nodup
import Mathlib.Data.List.Perm.Subperm
import DeclGraph.Proofs.JoinedPaths
import DeclGraph.Proofs.TextBytes
import DeclGraph.Proofs.TreeGrowth
import DeclGraph.Storage.Store

/-!
Saving changes one file or none. The temporary file takes a free name, so that moving it sets the artifact
and taking it away after a failure leaves what was there, whether the text could not be written or the file not be
moved.
-/

namespace DeclGraph.GraphStore

open FileTree

section Temporary

theorem temporaryName_toList (number : Nat) :
    (temporaryName number).toList =
      ".graph-".toList ++ (toString number).toList.leftpad 8 '_' ++ ".tmp".toList := by
  simp [temporaryName]

theorem digit_of_mem_toString {number : Nat} {c : Char} (member : c ∈ (toString number).toList) :
    c.isDigit = true := by
  rw [Nat.toString_eq_ofList_toDigits, String.toList_ofList] at member
  exact Nat.isDigit_of_mem_toDigits (by decide) (by decide) member

theorem dropWhile_padded (number : Nat) :
    ((toString number).toList.leftpad 8 '_').dropWhile (· == '_') = (toString number).toList := by
  have digits : (toString number).toList.dropWhile (· == '_') = (toString number).toList := by
    cases spelled : (toString number).toList with
    | nil => rfl
    | cons c rest =>
      have member : c ∈ (toString number).toList := by
        rw [spelled]
        exact List.mem_cons_self
      have digit := digit_of_mem_toString member
      have different : c ≠ '_' := by
        rintro rfl
        exact absurd digit (by decide)
      simp [different]
  rw [List.leftpad, List.dropWhile_append_of_pos, digits]
  intro c member
  simp [List.eq_of_mem_replicate member]

theorem temporaryName_injective : Function.Injective temporaryName := by
  intro number other same
  have written : (toString number).toList.leftpad 8 '_' = (toString other).toList.leftpad 8 '_' := by
    have lists := congrArg String.toList same
    rw [temporaryName_toList, temporaryName_toList, List.append_assoc, List.append_assoc] at lists
    exact List.append_cancel_right (List.append_cancel_left lists)
  have digits : (toString number).toList = (toString other).toList := by
    rw [← dropWhile_padded number, ← dropWhile_padded other, written]
  rw [Nat.toString_eq_ofList_toDigits, Nat.toString_eq_ofList_toDigits, String.toList_ofList,
    String.toList_ofList] at digits
  have values := congrArg (Nat.ofDigitChars 10 · 0) digits
  simpa [Nat.ofDigitChars_toDigits] using values

theorem isName_temporaryName (number : Nat) : Path.IsName (temporaryName number) where
  present empty := by
    have list := congrArg String.toList empty
    simp [temporaryName_toList] at list
  notHere here := by
    have list := congrArg String.toList here
    simp [temporaryName_toList] at list
  notUp up := by
    have list := congrArg String.toList up
    simp [temporaryName_toList] at list
  noSlash slash := by
    rw [temporaryName_toList, List.mem_append, List.mem_append] at slash
    rcases slash with (front | middle) | back
    · exact absurd front (by decide)
    · rw [List.leftpad, List.mem_append] at middle
      rcases middle with padding | digits
      · exact absurd (List.eq_of_mem_replicate padding) (by decide)
      · exact absurd (digit_of_mem_toString digits) (by decide)
    · exact absurd back (by decide)

/-- There are more temporary names than entries, so that one of them is free in any directory. -/
theorem exists_free (tree : FileTree) (directory : String) :
    ∃ number < tree.entries.length + 1,
      (tree.look (Path.joinTo directory (temporaryName number))).isOk = false := by
  by_contra none
  have taken : ∀ number < tree.entries.length + 1, ∃ entry,
      tree.look (Path.joinTo directory (temporaryName number)) = .ok entry := by
    intro number bounded
    cases found : tree.look (Path.joinTo directory (temporaryName number)) with
    | ok entry => exact ⟨entry, rfl⟩
    | error fault =>
      apply absurd _ none
      exact ⟨number, bounded, by rw [found]; rfl⟩
  obtain ⟨lead, joined, _⟩ := Path.segments_joinTo directory
  -- All of the names lie in the one place that the directory leads to.
  have placed : ∀ number < tree.entries.length + 1, ∃ middle,
      tree.walk [] lead = .ok middle ∧ (middle ++ [temporaryName number]) ∈ tree.entries.map (·.1) := by
    intro number bounded
    obtain ⟨entry, found⟩ := taken number bounded
    obtain ⟨place, placed, there⟩ := look_eq_ok.mp found
    have walked := (place_eq_ok.mp placed).2
    have named := isName_temporaryName number
    rw [joined _ (Path.not_isAbsolute_name named), Path.segments_segment named.isSegment] at walked
    obtain ⟨middle, first, last⟩ := walk_append.mp walked
    obtain ⟨_, _, ended⟩ := walk_cons.mp last
    rw [Path.step_name named] at ended
    cases ended
    refine ⟨middle, first, ?_⟩
    rw [entry?_of_ne_nil _ (by simp)] at there
    obtain ⟨row, member, _⟩ := Option.map_eq_some_iff.mp there
    have hit := List.find?_some member
    exact List.mem_map.mpr ⟨row, List.mem_of_find?_eq_some member, by simpa using hit⟩
  obtain ⟨middle, walked, _⟩ := placed 0 (Nat.succ_pos _)
  let places := (List.range (tree.entries.length + 1)).map fun number => middle ++ [temporaryName number]
  have distinct : places.Nodup := by
    apply List.Nodup.map _ List.nodup_range
    intro number other same
    exact temporaryName_injective (by simpa using same)
  have inside : places ⊆ tree.entries.map (·.1) := by
    intro place member
    obtain ⟨number, listed, rfl⟩ := List.mem_map.mp member
    obtain ⟨other, also, there⟩ := placed number (List.mem_range.mp listed)
    cases walked.symm.trans also
    exact there
  have fits := (distinct.subperm inside).length_le
  simp only [places, List.length_map, List.length_range] at fits
  omega

theorem freshPath_spec (tree : FileTree) (directory : String) :
    ∃ number, freshPath tree directory = Path.joinTo directory (temporaryName number)
      ∧ (tree.look (Path.joinTo directory (temporaryName number))).isOk = false
      ∧ ∀ smaller < number, (tree.look (Path.joinTo directory (temporaryName smaller))).isOk = true := by
  obtain ⟨other, bounded, free⟩ := exists_free tree directory
  have among : ((List.range (tree.entries.length + 1)).find? ((fun path => !(tree.look path).isOk) ∘
      fun number => Path.joinTo directory (temporaryName number))).isSome = true :=
    List.find?_isSome.mpr ⟨other, List.mem_range.mpr bounded, by simp [free]⟩
  obtain ⟨number, found⟩ := Option.isSome_iff_exists.mp among
  obtain ⟨isFirst, _, taken⟩ := List.find?_range_eq_some.mp found
  refine ⟨number, ?_, by simpa using isFirst, ?_⟩
  · simp only [freshPath, List.find?_map, found, Option.map_some, Option.getD_some]
  · intro smaller below
    simpa using taken smaller below

theorem free_of_place_freshPath {tree : FileTree} {directory : String} {place : List String}
    (placed : tree.place (freshPath tree directory) = .ok place) : tree.entry? place = none := by
  obtain ⟨number, chosen, missing, _⟩ := freshPath_spec tree directory
  cases there : tree.entry? place with
  | none => rfl
  | some entry =>
    have found : tree.look (freshPath tree directory) = .ok entry := look_eq_ok.mpr ⟨place, placed, there⟩
    rw [chosen] at found
    rw [found] at missing
    cases missing

theorem freshPath_of_first {tree : FileTree} {directory : String} {number : Nat}
    (free : (tree.look (Path.joinTo directory (temporaryName number))).isOk = false)
    (taken : ∀ smaller < number, (tree.look (Path.joinTo directory (temporaryName smaller))).isOk = true) :
    freshPath tree directory = Path.joinTo directory (temporaryName number) := by
  obtain ⟨other, chosen, also, first⟩ := freshPath_spec tree directory
  have equal : other = number := by
    rcases Nat.lt_trichotomy other number with below | equal | above
    · rw [taken other below] at also
      cases also
    · exact equal
    · rw [first number above] at free
      cases free
  rw [chosen, equal]

end Temporary

section Placing

variable {before middle after : FileTree} {path : String} {content : ByteArray}

/-- A file has come where nothing was, by the path that leads there, and no other place changed. -/
def AddsFile (before after : FileTree) (path : String) (content : ByteArray) : Prop :=
  ∃ spot, before.entry? spot = none ∧ after.place path = .ok spot
    ∧ ∀ place, after.entry? place = if place = spot then some (.file content) else before.entry? place

theorem ne_nil_of_free {spot : List String} (free : before.entry? spot = none) : spot ≠ [] := by
  apply ne_nil_of_not_directory
  rw [free]
  simp

theorem addsFile_writeFile (free : ∀ spot, before.place path = .ok spot → before.entry? spot = none)
    (wrote : before.writeFile path content = .ok after) : AddsFile before after path content := by
  obtain ⟨spot, placed, notDirectory, rfl⟩ := writeFile_eq_ok.mp wrote
  have nothing := free spot placed
  exact ⟨spot, nothing, place_stays (directoriesStay_put notDirectory _) placed,
    entry?_put before (ne_nil_of_free nothing) _⟩

namespace AddsFile

theorem setsFile (adds : AddsFile before after path content) : SetsFile before after path content := by
  obtain ⟨spot, free, placed, entries⟩ := adds
  exact ⟨spot, placed, by simp [free], entries⟩

theorem read (adds : AddsFile before after path content) : after.read path = .ok content := by
  obtain ⟨spot, _, placed, entries⟩ := adds
  exact read_eq_ok.mpr (look_eq_ok.mpr ⟨spot, placed, by rw [entries, if_pos rfl]⟩)

theorem rewrite (adds : AddsFile before middle path content) (more : ByteArray) :
    ∃ after, middle.writeFile path more = .ok after ∧ AddsFile before after path more := by
  obtain ⟨spot, free, placed, entries⟩ := adds
  have notDirectory : middle.entry? spot ≠ some .directory := by
    rw [entries, if_pos rfl]
    simp
  refine ⟨_, writeFile_eq_ok.mpr ⟨spot, placed, notDirectory, rfl⟩, spot, free, ?_, fun place => ?_⟩
  · exact place_stays (directoriesStay_put notDirectory _) placed
  · rw [entry?_put _ (ne_nil_of_free free), entries]
    by_cases same : place = spot
    · rw [if_pos same, if_pos same]
    · rw [if_neg same, if_neg same, if_neg same]

theorem replace (adds : AddsFile before middle path content) {target : String}
    (replaced : middle.replace path target = .ok after) : SetsFile before after target content := by
  have stay := adds.setsFile.directoriesStay
  have reads := adds.read
  obtain ⟨spot, free, placed, entries⟩ := adds
  obtain ⟨bytes, source, place, readAs, sourcePlaced, targetPlaced, _, other, rfl⟩ := replace_eq_ok.mp replaced
  cases placed.symm.trans sourcePlaced
  cases reads.symm.trans readAs
  have below := ne_nil_of_free free
  have placeBelow := ne_nil_of_not_directory other
  have directories : DirectoriesStay middle ((middle.erase spot).put place (.file content)) := by
    intro elsewhere directory
    have notPlace : elsewhere ≠ place := fun same => other (same ▸ directory)
    have notSpot : elsewhere ≠ spot := by
      rintro rfl
      rw [IsDirectoryAt, entries, if_pos rfl] at directory
      cases directory
    rw [IsDirectoryAt, entry?_put _ placeBelow, if_neg notPlace, entry?_erase _ below, if_neg notSpot]
    exact directory
  refine ⟨place, place_stays directories targetPlaced, fun directory => other (stay place directory), ?_⟩
  intro elsewhere
  rw [entry?_put _ placeBelow, entry?_erase _ below, entries]
  by_cases hit : elsewhere = place
  · rw [if_pos hit, if_pos hit]
  · rw [if_neg hit, if_neg hit]
    by_cases same : elsewhere = spot
    · rw [if_pos same, same, free]
    · rw [if_neg same, if_neg same]

theorem unlink (adds : AddsFile before middle path content) :
    ∃ after, middle.unlink path = .ok after ∧ SameEntries before after := by
  obtain ⟨spot, free, placed, entries⟩ := adds
  have there : middle.entry? spot = some (.file content) := by rw [entries, if_pos rfl]
  refine ⟨_, unlink_of_file placed there, fun place => ?_⟩
  rw [entry?_erase _ (ne_nil_of_free free), entries]
  by_cases same : place = spot
  · rw [if_pos same, same, free]
  · rw [if_neg same, if_neg same]

end AddsFile

theorem makeTemporary_outcome (directory : String) (world : World) :
    (∃ after, (makeTemporary directory).outcome world =
        (.ok (freshPath world.tree directory), { world with tree := after })
      ∧ AddsFile world.tree after (freshPath world.tree directory) .empty)
    ∨ ∃ fault, (makeTemporary directory).outcome world = (.error fault, world) := by
  simp only [makeTemporary, Run.outcome_bind, Run.outcome_tree, Run.outcome_onTree]
  cases wrote : world.tree.writeFile (freshPath world.tree directory) .empty with
  | error fault => exact Or.inr ⟨_, rfl⟩
  | ok after => exact Or.inl ⟨after, rfl, addsFile_writeFile (fun _ => free_of_place_freshPath) wrote⟩

/-- A file that is just made can be filled: whether or not it fails, no more than the content of the file changes. What
it holds after a success is good. -/
def Fills (write : String → Run Unit) (good : ByteArray → Prop) : Prop :=
  ∀ {before path content} world, AddsFile before world.tree path content →
    ∃ result written after, (write path).outcome world = (result, { world with tree := after })
      ∧ AddsFile before after path written ∧ (result = .ok () → good written)

theorem fills_writeText (text : String) : Fills (Run.writeText · text) fun bytes => Text.toBytes text = .ok bytes := by
  intro before path content world adds
  simp only [Run.outcome_writeText]
  cases encoded : Text.toBytes text with
  | error flaw => exact ⟨_, content, world.tree, rfl, adds, by simp⟩
  | ok bytes =>
    obtain ⟨after, wrote, holds⟩ := adds.rewrite bytes
    simp only [wrote]
    exact ⟨_, bytes, after, rfl, holds, fun _ => rfl⟩

theorem discard_outcome {temporary : String} (world : World) (adds : AddsFile before world.tree temporary content) :
    ∃ after, (discard temporary).outcome world = (.ok (), { world with tree := after }) ∧ SameEntries before after := by
  obtain ⟨after, removed, same⟩ := adds.unlink
  have there : (world.tree.look temporary).isOk = true := by
    rw [read_eq_ok.mp adds.read]
    rfl
  refine ⟨after, ?_, same⟩
  simp only [discard, Run.outcome_bind, Run.outcome_tree, there, if_true, removed, Run.outcome_onTree, Run.outcome_setTree]

/-- Once the directories are made, the file that the trail names is set, or the directories are all that has changed,
wherever putting it in place fails: the temporary file may not be made, not be filled or not be moved. -/
theorem placeWith_made {host : Host} {trail : Path.Trail} {write : String → Run Unit} {good : ByteArray → Prop}
    (fills : Fills write good) {world : World} {made : FileTree}
    (ready : FileTree.makeDirectories host.cwd trail.parent.root trail.parent.names world.tree = (.ok (), made)) :
    (∃ after bytes spot, (placeWith host trail write).outcome world = (.ok (), { world with tree := after })
        ∧ good bytes ∧ SetsFile made after trail.text bytes ∧ made.place (freshPath made trail.parent.text) = .ok spot)
      ∨ ∃ fault after, (placeWith host trail write).outcome world = (.error fault, { world with tree := after })
        ∧ SameEntries made after := by
  simp only [placeWith, Run.outcome_bind, Run.outcome_makeDirectories, ready]
  obtain ⟨opened, began, empty⟩ | ⟨fault, refused⟩ := makeTemporary_outcome trail.parent.text { world with tree := made }
  · obtain ⟨result, bytes, written, wrote, holds, isGood⟩ := fills { world with tree := opened } empty
    obtain ⟨cleaned, removed, same⟩ := discard_outcome { world with tree := written } holds
    simp only [began, Run.outcome_onFailure, Run.outcome_bind, wrote]
    cases result with
    | error fault =>
      simp only [removed]
      exact Or.inr ⟨fault, cleaned, rfl, same⟩
    | ok done =>
      simp only [moveOver, Run.outcome_bind, Run.outcome_tree, Run.outcome_onTree]
      cases replaced : written.replace (freshPath made trail.parent.text) trail.text with
      | error cause =>
        simp only [removed]
        exact Or.inr ⟨_, cleaned, rfl, same⟩
      | ok after =>
        obtain ⟨spot, placed, _⟩ := empty.setsFile
        exact Or.inl ⟨after, bytes, spot, rfl, isGood rfl, holds.replace replaced,
          place_stays empty.setsFile.directoriesBack placed⟩
  · simp only [refused]
    exact Or.inr ⟨fault, made, rfl, fun _ => rfl⟩

/-- Putting a file in place makes directories on the way. It then sets the file that the trail names, or fails and
changes nothing more. -/
theorem placeWith_outcome (host : Host) {trail : Path.Trail} (rooted : trail.root = "/" ∨ trail.root = "//")
    {write : String → Run Unit} {good : ByteArray → Prop} (fills : Fills write good) (world : World) :
    ∃ made after, AddsDirectories world.tree made trail.parent
      ∧ (((placeWith host trail write).outcome world = (.ok (), { world with tree := after })
          ∧ ∃ bytes, good bytes ∧ SetsFile made after trail.text bytes)
        ∨ ((∃ fault, (placeWith host trail write).outcome world = (.error fault, { world with tree := after }))
          ∧ SameEntries made after)) := by
  have adds := addsDirectories_makeDirectories host.cwd rooted trail.parent.names world.tree
  rw [show trail.root = trail.parent.root from rfl] at adds
  rcases ready : FileTree.makeDirectories host.cwd trail.parent.root trail.parent.names world.tree with ⟨fault | done, made⟩
  · rw [ready] at adds
    refine ⟨made, made, adds, Or.inr ⟨?_, fun _ => rfl⟩⟩
    simp only [placeWith, Run.outcome_bind, Run.outcome_makeDirectories, ready]
    exact ⟨_, rfl⟩
  · rw [ready] at adds
    obtain ⟨after, bytes, _, ran, isGood, sets, _⟩ | ⟨fault, after, ran, same⟩ := placeWith_made fills ready
    · exact ⟨made, after, adds, Or.inl ⟨ran, bytes, isGood, sets⟩⟩
    · exact ⟨made, after, adds, Or.inr ⟨⟨fault, ran⟩, same⟩⟩

end Placing

section Saving

variable {trail : Path.Trail}

theorem rooted_join (rooted : trail.root = "/" ∨ trail.root = "//") (more : String) :
    (trail.join more).root = "/" ∨ (trail.join more).root = "//" := by
  rw [Path.Trail.join, Path.Trail.append]
  by_cases relative : (Path.Trail.ofText more).root = ""
  · rwa [if_pos relative]
  · rw [if_neg relative]
    rw [Path.Trail.ofText, Path.Trail.rootOf] at relative ⊢
    split
    · exact Or.inr rfl
    · next notDoubled =>
      rw [if_neg notDoubled] at relative
      split
      · exact Or.inl rfl
      · next notAbsolute =>
        rw [if_neg notAbsolute] at relative
        exact absurd rfl relative

theorem rooted_artifact (settings : Settings) {root : String} (canonical : Path.IsCanonical root) :
    (artifact settings root).root = "/" ∨ (artifact settings root).root = "//" := by
  obtain ⟨place, _, rfl⟩ := canonical
  apply rooted_join
  apply rooted_join
  apply rooted_join
  rw [Path.Trail.ofText, Path.Trail.rootOf, Path.isAbsolute_text]
  split
  · exact Or.inr rfl
  · exact Or.inl rfl

theorem receiver_of_written {host : Host} {graph : GraphOperand} {root : Document} {text : String}
    (wrote : Saved.writeOperand host graph root = .ok text) : ∃ saved, graph.receiver = .ok saved := by
  cases graph with
  | graph value => exact ⟨value, rfl⟩
  | other value =>
    rw [Saved.writeOperand] at wrote
    split at wrote
    · cases wrote
    · split at wrote
      · cases wrote
      · cases wrote

/-- Saving changes the artifact alone, or fails and leaves every file. -/
theorem save_outcome (host : Host) (root : String) (rooted : trail.root = "/" ∨ trail.root = "//")
    (graph : GraphOperand) (world : World) :
    ((∃ text bytes after journal, Saved.writeOperand host graph (.text root) = .ok text ∧ Text.toBytes text = .ok bytes
        ∧ (save host (.file root trail) graph).outcome world =
          (.ok (.file root trail), { world with tree := after, journal })
        ∧ ChangesOnly world.tree after trail bytes)
      ∨ ∃ fault after, (save host (.file root trail) graph).outcome world =
          (.error fault, { world with tree := after })
        ∧ LeavesFiles world.tree after trail.parent) := by
  simp only [save, GraphStore.root, Run.outcome_bind, Run.outcome_ofExcept]
  cases wrote : Saved.writeOperand host graph (.text root) with
  | error fault => exact Or.inr ⟨fault, world.tree, rfl, leavesFiles_of_adds (.refl _ _)⟩
  | ok text =>
    obtain ⟨saved, received⟩ := receiver_of_written wrote
    obtain ⟨made, after, adds, ⟨ran, bytes, encoded, sets⟩ | ⟨⟨fault, ran⟩, same⟩⟩ :=
      placeWith_outcome host rooted (fills_writeText text) world
    · simp only [place, ran, received]
      exact Or.inl ⟨text, bytes, after, _, rfl, encoded, rfl, changesOnly_of_sets adds sets⟩
    · simp only [place, ran]
      exact Or.inr ⟨fault, after, rfl, leavesFiles_of_adds (adds.of_sameEntries same)⟩

end Saving

end DeclGraph.GraphStore
