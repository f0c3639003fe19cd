import DeclGraph.Proofs.CachedGraphs

/-!
The artifact under the standard settings: the two directories above it, and the temporary file beside it. A tree in
which it can be written once stays one, as long as nobody else touches the cache directory and the root remains.
-/

namespace DeclGraph

def Path.Location.down (location : Path.Location) (more : List String) : Path.Location :=
  ⟨location.doubled, location.names ++ more⟩

namespace FileTree

def Passable (tree : FileTree) (place : List String) : Prop :=
  tree.entry? place = none ∨ tree.IsDirectoryAt place

def SameUnder (tree other : FileTree) (place : List String) : Prop :=
  ∀ more, other.entry? (place ++ more) = tree.entry? (place ++ more)

/-- Everything but a directory and what is in it is the same in another tree. -/
def SameBeside (tree other : FileTree) (place : List String) : Prop :=
  ∀ spot, ¬ place <+: spot → other.entry? spot = tree.entry? spot

theorem takes_concat (holds : List String → Prop) (last : String) {front : List String}
    (each : ∀ count ≤ front.length, holds (front.take count)) (whole : holds (front ++ [last])) :
    ∀ count ≤ (front ++ [last]).length, holds ((front ++ [last]).take count) := by
  intro count bounded
  rw [List.length_append, List.length_singleton] at bounded
  rcases Nat.lt_or_eq_of_le bounded with inside | all
  · rw [List.take_append_of_le_length (by omega)]
    exact each count (by omega)
  · rw [all, List.take_of_length_le (by simp)]
    exact whole

theorem look_beside {tree other : FileTree} {place : List String} (same : SameBeside tree other place)
    {location : Path.Location} (proper : location.Proper) (apart : ¬ place <+: location.names) :
    other.look location.text = tree.look location.text := by
  apply look_congr proper
  intro count _
  apply same
  intro inside
  exact apart (inside.trans (List.take_prefix _ _))

end FileTree

namespace GraphStore

open FileTree
open DeclGraph.Path (Location IsName)

section Standard

variable {host : Host} {location : Location} {tree made other : FileTree}

def cacheWay : List String := [".typedep_graph"]
def metadataWay : List String := [".typedep_graph", "metadata"]
def insideWay (name : String) : List String := [".typedep_graph", "metadata", name]

theorem proper_down (proper : location.Proper) {more : List String} (named : ∀ name ∈ more, IsName name) :
    (location.down more).Proper := by
  intro name member
  rcases List.mem_append.mp member with above | below
  · exact proper name above
  · exact named name below

theorem isName_way {name : String} (member : name ∈ [".typedep_graph", "metadata", "graph.json"]) : IsName name := by
  simp only [List.mem_cons, List.not_mem_nil, or_false] at member
  rcases member with rfl | rfl | rfl <;> exact ⟨by decide, by decide, by decide, by decide⟩

theorem proper_metadata (proper : location.Proper) : (location.down metadataWay).Proper :=
  proper_down proper fun name member => isName_way (by simp_all [metadataWay]; tauto)

theorem proper_inside (proper : location.Proper) {name : String} (named : IsName name) :
    (location.down (insideWay name)).Proper := by
  apply proper_down proper
  intro other member
  simp only [insideWay, List.mem_cons, List.not_mem_nil, or_false] at member
  rcases member with rfl | rfl | rfl
  · exact isName_way (by simp)
  · exact isName_way (by simp)
  · exact named

theorem inside_names (location : Location) (name : String) :
    (location.down (insideWay name)).names = (location.down metadataWay).names ++ [name] := by
  simp [Location.down, insideWay, metadataWay]

theorem metadata_names (location : Location) :
    (location.down metadataWay).names = (location.down cacheWay).names ++ ["metadata"] := by
  simp [Location.down, cacheWay, metadataWay]

def standardTrail (location : Location) : Path.Trail := (location.down (insideWay "graph.json")).trail

theorem artifact_standard (proper : location.Proper) (path : String) :
    artifact { path } location.text = standardTrail location := by
  have cache : Path.Trail.ofText ".typedep_graph" = ⟨"", [".typedep_graph"]⟩ := by decide
  have metadata : Path.Trail.ofText metadataName = ⟨"", ["metadata"]⟩ := by decide
  have graph : Path.Trail.ofText "graph.json" = ⟨"", ["graph.json"]⟩ := by decide
  simp only [artifact, Path.Trail.join, Path.Trail.append, trail_ofText_text proper, cache, metadata, graph, if_true,
    List.append_assoc]
  rfl

def cacheNames (settings : Settings) (root : String) : List String :=
  ((Path.Trail.ofText root).join settings.cacheDirName).names

theorem cacheNames_standard (proper : location.Proper) (path : String) :
    cacheNames { path } location.text = (location.down cacheWay).names := by
  have cache : Path.Trail.ofText ".typedep_graph" = ⟨"", [".typedep_graph"]⟩ := by decide
  simp only [cacheNames, Path.Trail.join, Path.Trail.append, trail_ofText_text proper, cache, if_true]
  rfl

theorem standardTrail_text (location : Location) :
    (standardTrail location).text = (location.down (insideWay "graph.json")).text :=
  (location.down (insideWay "graph.json")).trail_text

theorem standardTrail_parent (location : Location) : (standardTrail location).parent = (location.down metadataWay).trail := by
  rw [Path.Trail.parent, standardTrail, Location.trail, inside_names, List.dropLast_concat]
  rfl

theorem parent_text (location : Location) : (standardTrail location).parent.text = (location.down metadataWay).text := by
  rw [standardTrail_parent, Location.trail_text]

theorem temporary_text (proper : location.Proper) (number : Nat) :
    Path.joinTo (standardTrail location).parent.text (temporaryName number) =
      (location.down (insideWay (temporaryName number))).text := by
  rw [parent_text, Path.joinTo_text (proper_metadata proper) (isName_temporaryName number), ← inside_names]
  rfl

theorem temporaryName_ne (number : Nat) : temporaryName number ≠ "graph.json" := by
  intro same
  have lists := congrArg String.toList same
  rw [temporaryName_toList] at lists
  simp at lists

/-- Nothing keeps the artifact from being written: the root is a directory, no file is in the way of the directories,
and the given number is the first that is free for the temporary file. -/
structure Ready (location : Location) (number : Nat) (tree : FileTree) : Prop where
  above : tree.OpenAbove location.names
  root : tree.IsDirectoryAt location.names
  cache : tree.Passable (location.down cacheWay).names
  metadata : tree.Passable (location.down metadataWay).names
  artifact : tree.entry? (location.down (insideWay "graph.json")).names ≠ some .directory
  free : tree.entry? (location.down (insideWay (temporaryName number))).names = none
  taken : ∀ smaller < number, tree.entry? (location.down (insideWay (temporaryName smaller))).names ≠ none

structure Sized (location : Location) (number : Nat) : Prop where
  temporary : ∀ other ≤ number, Fits (location.down (insideWay (temporaryName other)))
  artifact : Fits (location.down (insideWay "graph.json"))

theorem adds_of_makeDirectories {cwd : String} {result : Except TreeFault Unit}
    (ran : FileTree.makeDirectories cwd (standardTrail location).root (standardTrail location).parent.names tree = (result, made)) :
    AddsDirectories tree made (standardTrail location).parent := by
  have adds := addsDirectories_makeDirectories cwd location.rooted_trail (standardTrail location).parent.names tree
  rwa [show makeDirectories cwd location.trail.root (standardTrail location).parent.names tree = (result, made) from ran] at adds

theorem entry_makeDirectories (proper : location.Proper) (above : tree.OpenAbove location.names)
    (root : tree.IsDirectoryAt location.names) {cwd : String} {result : Except TreeFault Unit}
    (ran : FileTree.makeDirectories cwd (standardTrail location).root (standardTrail location).parent.names tree = (result, made))
    {spot : List String} (notCache : spot ≠ (location.down cacheWay).names)
    (notMetadata : spot ≠ (location.down metadataWay).names) : made.entry? spot = tree.entry? spot := by
  have adds : AddsDirectories tree made (location.down metadataWay).trail :=
    standardTrail_parent location ▸ adds_of_makeDirectories ran
  rcases adds spot with same | ⟨free, _, count, bounded, placed⟩
  · exact same
  · -- The place lies on the way to the metadata directory, where all but the last two are directories already.
    exfalso
    have proper' : Location.Proper ⟨location.doubled, (location.down metadataWay).names.take count⟩ :=
      fun name member => proper_metadata proper name (List.mem_of_mem_take member)
    have spelled := Location.trail_text ⟨location.doubled, (location.down metadataWay).names.take count⟩
    obtain ⟨rfl, _⟩ := (place_text_eq_ok proper').mp (spelled ▸ placed)
    simp only [Location.trail, Location.down, metadataWay, List.length_append, List.length_cons, List.length_nil] at bounded
    rcases Nat.lt_or_ge location.names.length count with beyond | inside
    · rcases Nat.lt_or_ge (location.names.length + 1) count with last | first
      · apply notMetadata
        exact List.take_of_length_le (by simp [Location.down, metadataWay]; omega)
      · apply notCache
        rw [show count = location.names.length + 1 by omega]
        simp [Location.down, metadataWay, cacheWay, List.take_append, List.take_of_length_le (Nat.le_succ _)]
    · have front : (location.down metadataWay).names.take count = location.names.take count :=
        List.take_append_of_le_length inside
      rw [front] at free
      rcases Nat.lt_or_eq_of_le inside with lower | all
      · exact absurd (free.symm.trans (above count lower)) (by simp)
      · rw [all, List.take_length] at free
        exact absurd (free.symm.trans root) (by simp)

theorem temporary_apart (location : Location) (number : Nat) :
    (location.down (insideWay (temporaryName number))).names ≠ (location.down cacheWay).names
      ∧ (location.down (insideWay (temporaryName number))).names ≠ (location.down metadataWay).names
      ∧ (location.down (insideWay (temporaryName number))).names ≠ (location.down (insideWay "graph.json")).names := by
  refine ⟨?_, ?_, ?_⟩
  · simp [Location.down, insideWay, cacheWay]
  · simp [Location.down, insideWay, metadataWay]
  · simp [Location.down, insideWay, temporaryName_ne]

theorem artifact_apart (location : Location) :
    (location.down (insideWay "graph.json")).names ≠ (location.down cacheWay).names
      ∧ (location.down (insideWay "graph.json")).names ≠ (location.down metadataWay).names := by
  constructor
  · simp [Location.down, insideWay, cacheWay]
  · simp [Location.down, insideWay, metadataWay]

theorem Ready.passable {number : Nat} (ready : Ready location number tree) :
    ∀ count ≤ (location.down metadataWay).names.length, tree.Passable ((location.down metadataWay).names.take count) := by
  have start : ∀ count ≤ location.names.length, tree.Passable (location.names.take count) := by
    intro count bounded
    rcases Nat.lt_or_eq_of_le bounded with inside | all
    · exact Or.inr (ready.above count inside)
    · rw [all, List.take_length]
      exact Or.inr ready.root
  have cache : ∀ count ≤ (location.down cacheWay).names.length, tree.Passable ((location.down cacheWay).names.take count) :=
    takes_concat _ _ start ready.cache
  have metadata := ready.metadata
  rw [metadata_names] at metadata ⊢
  exact takes_concat _ _ cache metadata

/-- The metadata directory has been made, and nothing else. -/
structure Prepared (location : Location) (tree made : FileTree) : Prop where
  adds : AddsDirectories tree made (standardTrail location).parent
  kept : ∀ spot, spot ≠ (location.down cacheWay).names → spot ≠ (location.down metadataWay).names →
    made.entry? spot = tree.entry? spot
  above : made.OpenAbove (location.down metadataWay).names
  directory : made.IsDirectoryAt (location.down metadataWay).names

theorem makeDirectories_of_ready (host : Host) {number : Nat} (proper : location.Proper) (sized : Sized location number)
    (ready : Ready location number tree) :
    ∃ made, FileTree.makeDirectories host.cwd (standardTrail location).root (standardTrail location).parent.names tree =
        (.ok (), made) ∧ Prepared location tree made := by
  have fits : Fits (location.down metadataWay) := by
    have below := sized.artifact
    rw [show location.down (insideWay "graph.json") = ⟨location.doubled, (location.down metadataWay).names ++ ["graph.json"]⟩
      from congrArg (Location.mk location.doubled) (inside_names location _)] at below
    exact below.above
  obtain ⟨made, ran, above, directory⟩ := makeDirectories_isOk host.cwd (proper_metadata proper) fits ready.passable
  have whole : FileTree.makeDirectories host.cwd (standardTrail location).root (standardTrail location).parent.names tree =
      (.ok (), made) := by
    rw [standardTrail_parent]
    exact ran
  exact ⟨made, whole, adds_of_makeDirectories whole, fun _ => entry_makeDirectories proper ready.above ready.root whole, above,
    directory⟩

namespace Prepared

variable (prepared : Prepared location tree made)
include prepared

theorem openAbove_inside (name : String) : made.OpenAbove (location.down (insideWay name)).names := by
  rw [inside_names]
  exact openAbove_concat prepared.directory prepared.above _

theorem cache : made.IsDirectoryAt (location.down cacheWay).names := by
  have last := prepared.above
  rw [metadata_names] at last
  have there := last.directory_dropLast
  rwa [List.dropLast_concat] at there

theorem temporary (number : Nat) : made.entry? (location.down (insideWay (temporaryName number))).names =
    tree.entry? (location.down (insideWay (temporaryName number))).names :=
  prepared.kept _ (temporary_apart location number).1 (temporary_apart location number).2.1

theorem artifact : made.entry? (location.down (insideWay "graph.json")).names =
    tree.entry? (location.down (insideWay "graph.json")).names :=
  prepared.kept _ (artifact_apart location).1 (artifact_apart location).2

end Prepared

theorem look_of_ready {number : Nat} (proper : location.Proper) (sized : Sized location number)
    (ready : Ready location number tree) :
    (∃ entry, tree.look (standardTrail location).text = .ok entry) ∨ tree.look (standardTrail location).text = .error .missing := by
  rw [standardTrail_text]
  apply look_text_or_missing (proper_inside proper (isName_way (by simp))) sized.artifact
  intro count bounded
  rw [inside_names, List.length_append, List.length_singleton] at bounded
  rw [inside_names, List.take_append_of_le_length (Nat.le_of_lt_succ bounded)]
  exact ready.passable count (Nat.le_of_lt_succ bounded)

theorem under_cache (location : Location) (more : List String) :
    (location.down (".typedep_graph" :: more)).names = (location.down cacheWay).names ++ more := by
  simp [Location.down, cacheWay]

theorem beside_apart {spot : List String} (beside : ¬ (location.down cacheWay).names <+: spot) (more : List String) :
    spot ≠ (location.down (".typedep_graph" :: more)).names := by
  rintro rfl
  rw [under_cache] at beside
  exact beside (List.prefix_append _ _)

theorem look_temporary (proper : location.Proper) {number : Nat}
    (fits : Fits (location.down (insideWay (temporaryName number)))) (prepared : Prepared location tree made) :
    (made.look (Path.joinTo (standardTrail location).parent.text (temporaryName number))).isOk = true
      ↔ tree.entry? (location.down (insideWay (temporaryName number))).names ≠ none := by
  have proper' := proper_inside proper (isName_temporaryName number)
  rw [temporary_text proper, ← prepared.temporary]
  cases found : made.look (location.down (insideWay (temporaryName number))).text with
  | ok entry =>
    obtain ⟨there, _⟩ := (look_text_eq_ok proper').mp found
    simp [there, Except.isOk, Except.toBool]
  | error fault =>
    cases there : made.entry? (location.down (insideWay (temporaryName number))).names with
    | none => simp [Except.isOk, Except.toBool]
    | some entry =>
      exact absurd ((look_text_eq_ok proper').mpr ⟨there, fits, prepared.openAbove_inside _⟩) (by simp [found])

/-- In a tree that is ready the temporary file takes the place with the number of the tree. -/
theorem freshPath_of_ready {number : Nat} (proper : location.Proper) (sized : Sized location number)
    (ready : Ready location number tree) (prepared : Prepared location tree made) :
    freshPath made (standardTrail location).parent.text = (location.down (insideWay (temporaryName number))).text := by
  rw [← temporary_text proper]
  apply freshPath_of_first
  · apply Bool.eq_false_iff.mpr
    intro found
    exact (look_temporary proper (sized.temporary number (Nat.le_refl _)) prepared).mp found ready.free
  · intro smaller below
    exact (look_temporary proper (sized.temporary smaller (Nat.le_of_lt below)) prepared).mpr (ready.taken smaller below)

theorem Ready.prepared {number : Nat} (ready : Ready location number tree) (prepared : Prepared location tree made) :
    Ready location number made := by
  have stay : DirectoriesStay tree made := prepared.adds.directoriesStay
  refine ⟨fun count bounded => stay _ (ready.above count bounded), stay _ ready.root, Or.inr prepared.cache,
    Or.inr prepared.directory, ?_, ?_, ?_⟩
  · rw [prepared.artifact]
    exact ready.artifact
  · rw [prepared.temporary]
    exact ready.free
  · intro smaller below
    rw [prepared.temporary]
    exact ready.taken smaller below

theorem Ready.elsewhere {number : Nat} (ready : Ready location number tree)
    (artifact : other.entry? (location.down (insideWay "graph.json")).names ≠ some .directory)
    (elsewhere : ∀ spot, spot ≠ (location.down (insideWay "graph.json")).names → other.entry? spot = tree.entry? spot) :
    Ready location number other := by
  have directory {spot : List String} (there : tree.IsDirectoryAt spot) : other.IsDirectoryAt spot := by
    rw [IsDirectoryAt, elsewhere]
    · exact there
    · rintro rfl
      exact ready.artifact there
  have temporary (number : Nat) := elsewhere _ (temporary_apart location number).2.2
  refine ⟨fun count bounded => directory (ready.above count bounded), directory ready.root, ?_, ?_, artifact, ?_, ?_⟩
  · rw [Passable, elsewhere _ (artifact_apart location).1.symm]
    exact ready.cache.imp_right directory
  · rw [Passable, elsewhere _ (artifact_apart location).2.symm]
    exact ready.metadata.imp_right directory
  · rw [temporary]
    exact ready.free
  · intro smaller below
    rw [temporary]
    exact ready.taken smaller below

theorem Ready.erase {number : Nat} (ready : Ready location number tree) :
    Ready location number (tree.erase (location.down (insideWay "graph.json")).names) := by
  have below : (location.down (insideWay "graph.json")).names ≠ [] := by simp [Location.down, insideWay]
  apply ready.elsewhere
  · rw [entry?_erase _ below, if_pos rfl]
    simp
  · intro spot different
    rw [entry?_erase _ below, if_neg different]

theorem room_of_ready {number : Nat} (proper : location.Proper) (sized : Sized location number)
    (ready : Ready location number tree) (prepared : Prepared location tree made) :
    made.place (freshPath made (standardTrail location).parent.text) =
      .ok (location.down (insideWay (temporaryName number))).names := by
  rw [freshPath_of_ready proper sized ready prepared]
  exact (place_text_eq_ok (proper_inside proper (isName_temporaryName number))).mpr
    ⟨rfl, sized.temporary number (Nat.le_refl _), prepared.openAbove_inside _⟩

theorem Prepared.beside (prepared : Prepared location tree made) : SameBeside tree made (location.down cacheWay).names :=
  fun _ beside => prepared.kept _ (beside_apart beside []) (beside_apart beside _)

/-- In a tree that is ready a text that has bytes becomes the artifact. The tree is ready again, and beside the cache
directory nothing has changed. -/
theorem place_of_ready (host : Host) {number : Nat} {world : World} (proper : location.Proper) (sized : Sized location number)
    (ready : Ready location number world.tree) {text : String} (formed : Text.WellFormed text) :
    ∃ after, (place host (standardTrail location) text).outcome world = (.ok (), { world with tree := after })
      ∧ Ready location number after ∧ after.look (standardTrail location).text = .ok (.file text.toUTF8)
      ∧ SameBeside world.tree after (location.down cacheWay).names := by
  obtain ⟨made, ran, prepared⟩ := makeDirectories_of_ready host proper sized ready
  have graphProper := proper_inside proper (isName_way (show "graph.json" ∈ _ by simp))
  have aimed : made.place (standardTrail location).text = .ok (location.down (insideWay "graph.json")).names := by
    rw [standardTrail_text]
    exact (place_text_eq_ok graphProper).mpr ⟨rfl, sized.artifact, prepared.openAbove_inside _⟩
  have again := ready.prepared prepared
  obtain ⟨after, placed, sets⟩ := place_eq_ok host formed ran (room_of_ready proper sized ready prepared) aimed again.artifact
  obtain ⟨spot, leads, _, entries⟩ := sets
  obtain rfl : spot = (location.down (insideWay "graph.json")).names := by
    rw [standardTrail_text] at leads
    exact ((place_text_eq_ok graphProper).mp leads).1
  have there : after.entry? (location.down (insideWay "graph.json")).names = some (.file text.toUTF8) := by
    rw [entries, if_pos rfl]
  have elsewhere (other : List String) (different : other ≠ (location.down (insideWay "graph.json")).names) :
      after.entry? other = made.entry? other := by
    rw [entries, if_neg different]
  refine ⟨after, placed, again.elsewhere (by simp [there]) elsewhere, look_eq_ok.mpr ⟨_, leads, there⟩, fun other beside => ?_⟩
  rw [elsewhere _ (beside_apart beside _), prepared.beside _ beside]

/-- In a tree that is ready a text without bytes is refused. The tree is still ready, and beside the cache directory
nothing has changed. -/
theorem place_refused (host : Host) {number : Nat} {world : World} (proper : location.Proper) (sized : Sized location number)
    (ready : Ready location number world.tree) {text : String} {flaw : Text.Unpaired}
    (flawed : Text.toBytes text = .error flaw) :
    ∃ after, (place host (standardTrail location) text).outcome world =
        (.error (.unencodable flaw), { world with tree := after })
      ∧ Ready location number after ∧ SameBeside world.tree after (location.down cacheWay).names := by
  obtain ⟨made, ran, prepared⟩ := makeDirectories_of_ready host proper sized ready
  obtain ⟨after, refused, same⟩ := place_eq_error host flawed ran (room_of_ready proper sized ready prepared)
  have again := ready.prepared prepared
  refine ⟨after, refused, again.elsewhere (by rw [same]; exact again.artifact) fun spot _ => same spot, fun other beside => ?_⟩
  rw [same, prepared.beside _ beside]

theorem taken_of_isOk (proper : location.Proper) (prepared : Prepared location tree made) {number : Nat}
    (found : (made.look (Path.joinTo (standardTrail location).parent.text (temporaryName number))).isOk = true) :
    Fits (location.down (insideWay (temporaryName number)))
      ∧ tree.entry? (location.down (insideWay (temporaryName number))).names ≠ none := by
  rw [temporary_text proper] at found
  cases looked : made.look (location.down (insideWay (temporaryName number))).text with
  | error fault =>
    rw [looked] at found
    cases found
  | ok entry =>
    obtain ⟨there, fits, _⟩ := (look_text_eq_ok (proper_inside proper (isName_temporaryName number))).mp looked
    rw [← prepared.temporary, there]
    exact ⟨fits, by simp⟩

/-- Where a text was put in place, everything was ready for it. -/
theorem ready_of_place {host : Host} {text : String} {world after : World} (proper : location.Proper)
    (root : world.tree.isDirectory location.text = true)
    (ran : (place host (standardTrail location) text).outcome world = (.ok (), after)) :
    ∃ number, Sized location number ∧ Ready location number world.tree := by
  obtain ⟨made, spot, target, directories, placed, aimed, other⟩ := of_place_eq_ok ran
  obtain ⟨number, chosen, missing, first⟩ := freshPath_spec made (standardTrail location).parent.text
  obtain ⟨here, _, open_⟩ := (look_text_eq_ok proper).mp (isDirectory_iff.mp root)
  rw [chosen, temporary_text proper] at placed
  obtain ⟨_, fits, opened⟩ := (place_text_eq_ok (proper_inside proper (isName_temporaryName number))).mp placed
  rw [standardTrail_text] at aimed
  obtain ⟨rfl, graphFits, _⟩ := (place_text_eq_ok (proper_inside proper (isName_way (by simp)))).mp aimed
  rw [inside_names] at opened
  have above := opened.dropLast
  have directory := opened.directory_dropLast
  rw [List.dropLast_concat] at above directory
  have prepared : Prepared location world.tree made :=
    ⟨adds_of_makeDirectories directories, fun _ => entry_makeDirectories proper open_ here directories, above, directory⟩
  -- A directory that is there now was there before, or its place was free.
  have passable {spot : List String} (there : made.IsDirectoryAt spot) : world.tree.Passable spot := by
    rcases prepared.adds spot with same | ⟨free, _⟩
    · exact Or.inr (same.symm.trans there)
    · exact Or.inl free
  have taken {smaller : Nat} (below : smaller < number) := taken_of_isOk proper prepared (first smaller below)
  refine ⟨number, ⟨?_, graphFits⟩, open_, here, passable prepared.cache, passable directory, ?_, ?_,
    fun smaller below => (taken below).2⟩
  · intro other bounded
    rcases Nat.lt_or_eq_of_le bounded with below | rfl
    · exact (taken below).1
    · exact fits
  · rw [← prepared.artifact]
    exact other
  · by_contra there
    have found := (look_temporary proper fits prepared).mpr there
    rw [missing] at found
    cases found

theorem ready_spared {number : Nat} (proper : location.Proper) (ready : Ready location number tree)
    (root : other.isDirectory location.text = true) (spared : SameUnder tree other (location.down cacheWay).names) :
    Ready location number other := by
  have same (more : List String) : other.entry? (location.down (".typedep_graph" :: more)).names =
      tree.entry? (location.down (".typedep_graph" :: more)).names := by
    rw [under_cache]
    exact spared more
  obtain ⟨there, _, above⟩ := (look_text_eq_ok proper).mp (isDirectory_iff.mp root)
  have passable {more : List String} (before : tree.Passable (location.down (".typedep_graph" :: more)).names) :
      other.Passable (location.down (".typedep_graph" :: more)).names := by
    rwa [Passable, IsDirectoryAt, same]
  refine ⟨above, there, passable ready.cache, passable ready.metadata, ?_, ?_, ?_⟩
  · rw [insideWay, same _]
    exact ready.artifact
  · rw [insideWay, same _]
    exact ready.free
  · intro smaller below
    rw [insideWay, same _]
    exact ready.taken smaller below

theorem look_spared (proper : location.Proper) (root : tree.OpenAbove location.names) (here : tree.IsDirectoryAt location.names)
    (otherRoot : other.OpenAbove location.names) (otherHere : other.IsDirectoryAt location.names)
    (spared : SameUnder tree other (location.down cacheWay).names) :
    other.look (standardTrail location).text = tree.look (standardTrail location).text := by
  rw [standardTrail_text]
  apply look_congr (proper_inside proper (isName_way (by simp)))
  have start : ∀ count ≤ location.names.length, other.entry? (location.names.take count) = tree.entry? (location.names.take count) := by
    intro count bounded
    rcases Nat.lt_or_eq_of_le bounded with inside | all
    · exact (otherRoot count inside).trans (root count inside).symm
    · rw [all, List.take_length]
      exact otherHere.trans here.symm
  have cache := takes_concat (fun spot => other.entry? spot = tree.entry? spot) ".typedep_graph" start
    (by simpa [Location.down, cacheWay] using spared [])
  have metadata := takes_concat (fun spot => other.entry? spot = tree.entry? spot) "metadata" cache
    (by simpa [Location.down, cacheWay] using spared ["metadata"])
  have graph := takes_concat (fun spot => other.entry? spot = tree.entry? spot) "graph.json" metadata
    (by simpa [Location.down, cacheWay] using spared ["metadata", "graph.json"])
  simpa [Location.down, insideWay] using graph

end Standard

end GraphStore

end DeclGraph
