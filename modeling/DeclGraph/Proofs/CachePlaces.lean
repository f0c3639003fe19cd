import DeclGraph.Proofs.CachedGraphs
import DeclGraph.Proofs.NamedFiles
import DeclGraph.Proofs.ReadSettings

/-!
Where the saved graph lies. The names in the settings hold no slash, so each is one step from the root; but a step may
stay or go up. Unless it does so in the wrong place, the graph lies below the root, and saving it touches nothing
outside.
-/

namespace DeclGraph

namespace Path

variable {names spot : List String} {first middle last : String}

theorem prefix_step (present : names ≠ []) (plain : IsSegment first) : names <+: step names first ↔ first ≠ ".." := by
  rcases plain.cases with rfl | rfl | named
  · simp [step_here]
  · have some := List.length_pos_iff.mpr present
    refine iff_of_false (fun inside => ?_) (by simp)
    have shorter := inside.length_le
    rw [step_up, List.length_dropLast] at shorter
    omega
  · rw [step_name named]
    simp [named.notUp]

theorem dropLast_prefix_step (names : List String) (plain : IsSegment first) : names.dropLast <+: step names first := by
  rcases plain.cases with rfl | rfl | named
  · rw [step_here]
    exact List.dropLast_prefix names
  · rw [step_up]
  · rw [step_name named]
    exact (List.dropLast_prefix names).trans (List.prefix_append _ _)

theorem prefix_of_under_step (plain : IsSegment last) (under : Under names (step spot last)) : names <+: spot := by
  rcases plain.cases with rfl | rfl | named
  · rw [step_here] at under
    exact under.1
  · rw [step_up] at under
    exact under.1.trans (List.dropLast_prefix spot)
  · rw [step_name named] at under
    exact under_concat.mp under

theorem eq_step_concat (present : names ≠ []) (plain : IsSegment first) :
    names = step names first ++ [middle] ↔ first = ".." ∧ names.getLast? = some middle := by
  constructor
  · intro back
    have up : first = ".." := by
      by_contra down
      have longer := ((prefix_step present plain).mpr down).length_le
      have lengths := congrArg List.length back
      rw [List.length_append, List.length_singleton] at lengths
      omega
    refine ⟨up, ?_⟩
    rw [back]
    exact List.getLast?_concat
  · rintro ⟨rfl, called⟩
    obtain ⟨front, rfl⟩ := List.getLast?_eq_some_iff.mp called
    rw [step_up, List.dropLast_concat]

/-- A step, a name and another step lead below the start, unless the first step goes up and the name does not lead back,
or nothing is left of the name. -/
theorem under_steps (present : names ≠ []) (firstPlain : IsSegment first) (middleNamed : IsName middle)
    (lastPlain : IsSegment last) : Under names ([first, middle, last].foldl step names) ↔
      if first = ".." then names.getLast? = some middle ∧ last ≠ "." ∧ last ≠ ".." else first = "." → last ≠ ".." := by
  have inside := prefix_step present firstPlain
  simp only [List.foldl_cons, List.foldl_nil, step_name middleNamed]
  rcases lastPlain.cases with rfl | rfl | lastNamed
  · rw [step_here, under_concat, inside]
    by_cases up : first = ".." <;> simp [up]
  · -- The name is taken back, so that the first step alone counts.
    rw [step_up, List.dropLast_concat]
    rcases firstPlain.cases with rfl | rfl | firstNamed
    · simp [Under, step_here]
    · have out : ¬ names <+: step names ".." := by simpa using inside
      simp [Under, out]
    · rw [step_name firstNamed, under_concat]
      simp [firstNamed.notHere, firstNamed.notUp]
  · rw [step_name lastNamed, under_concat, List.prefix_concat_iff, inside, eq_step_concat present firstPlain]
    by_cases up : first = ".." <;> simp [up, lastNamed.notHere, lastNamed.notUp]

theorem dropLast_prefix_steps (firstPlain : IsSegment first) (middleNamed : IsName middle) (lastPlain : IsSegment last) :
    names.dropLast <+: [first, middle, last].foldl step names := by
  have once := dropLast_prefix_step names firstPlain
  have back := dropLast_prefix_step (step names first ++ [middle]) lastPlain
  rw [List.dropLast_concat] at back
  simp only [List.foldl_cons, List.foldl_nil, step_name middleNamed]
  exact once.trans back

theorem Trail.ofText_text {trail : Trail} (sound : trail.Sound) (rooted : trail.root = "/" ∨ trail.root = "//") :
    Location.ofText trail.text = ⟨trail.root = "//", trail.names.foldl step []⟩ := by
  have joined := Trail.join_text ⟨false, []⟩ sound
  rw [Location.join, if_pos (FileTree.isAbsolute_trail rooted trail.names), Location.along, if_neg] at joined
  · exact joined
  · rcases rooted with single | double
    · simp [single]
    · simp [double]

end Path

namespace FileTree

open DeclGraph.Path (Under)

variable {tree : FileTree} {path : String} {start spot : List String}

theorem walk_leads {segments : List String} (walked : tree.walk start segments = .ok spot) :
    spot = segments.foldl Path.step start := by
  induction segments generalizing start with
  | nil =>
    cases walked
    rfl
  | cons segment rest ih => exact ih (walk_cons.mp walked).2.2

theorem place_leads (placed : tree.place path = .ok spot) : spot = (Path.Location.ofText path).names :=
  walk_leads (place_eq_ok.mp placed).2

/-- Outside a root a tree stays as it was, but that directories are made on the way to the root where they are missing. -/
structure Confined (before after : FileTree) (root : String) : Prop where
  outside : ∀ spot, ¬ Under (Path.names root) spot → after.entry? spot = before.entry? spot
    ∨ spot <+: Path.names root ∧ before.entry? spot = none ∧ after.IsDirectoryAt spot
  rooted : before.isDirectory root = true → ∀ spot, ¬ Under (Path.names root) spot → after.entry? spot = before.entry? spot

end FileTree

namespace Settings

variable {settings : Settings}

theorem IsFileName.isSegment {name : String} (named : IsFileName name) : Path.IsSegment name :=
  ⟨named.present, named.noSlash⟩

/-- The names of the cache are names of files. -/
structure Named (settings : Settings) : Prop where
  cacheDirName : IsFileName settings.cacheDirName
  graphFileName : IsFileName settings.graphFileName

theorem Named.relative (named : settings.Named) : settings.Relative :=
  ⟨Path.not_isAbsolute_segment named.cacheDirName.isSegment, Path.not_isAbsolute_segment named.graphFileName.isSegment⟩

theorem gives_of_settled {standard : Settings} {entries : Entries} (settled : Settled standard entries settings)
    {parameter : Parameter} (sound : Gives parameter (standard.value parameter) (standard.value parameter)) :
    ∃ given, Gives parameter given (settings.value parameter) := by
  rcases settled.values parameter with ⟨given, _, gives⟩ | ⟨_, same⟩
  · exact ⟨given, gives⟩
  · rw [same]
    exact ⟨_, sound⟩

/-- Settings that are read name files, whatever the file holds. -/
theorem named_load {host : Host} {trail : Path.Trail} {world after : World}
    (ran : (load host trail).outcome world = (.ok settings, after)) : settings.Named := by
  obtain ⟨file, found⟩ : ∃ file, world.tree.probe (Path.absolute host.cwd trail.text) = .ok file := by
    obtain ⟨tree, _, asked, ran⟩ := Run.outcome_bind_eq_ok.mp ran
    cases asked
    obtain ⟨file, _, probed, _⟩ := Run.outcome_bind_eq_ok.mp ran
    rw [Run.outcome_onTree] at probed
    cases given : world.tree.probe (Path.absolute host.cwd trail.text) with
    | error cause =>
      rw [given] at probed
      cases probed
    | ok file => exact ⟨file, rfl⟩
  obtain ⟨_, ⟨_, _, failed⟩ | ⟨_, final, again, settled⟩⟩ := ends_load host trail found
  · cases failed.symm.trans ran
  · cases again.symm.trans ran
    constructor
    · obtain ⟨_, gives⟩ := gives_of_settled settled (gives_standard trail.text .cacheDirName)
      cases gives with
      | cacheDirName named => exact named
    · obtain ⟨_, gives⟩ := gives_of_settled settled (gives_standard trail.text .graphFileName)
      cases gives with
      | graphFileName named => exact named

/-- Whatever a settings file holds, the names that are loaded lead nowhere but down. -/
theorem relative_load {host : Host} {trail : Path.Trail} {world after : World}
    (ran : (load host trail).outcome world = (.ok settings, after)) : settings.Relative :=
  (named_load ran).relative

end Settings

namespace GraphStore

open FileTree
open DeclGraph.Path (Location Trail Under IsName)

variable {settings : Settings} {root : Location} {spot : List String}

def steps (settings : Settings) : List String := [settings.cacheDirName, metadataName, settings.graphFileName]

theorem isName_metadataName : IsName metadataName := ⟨by decide, by decide, by decide, by decide⟩

theorem sound_artifact (settings : Settings) (root : String) : (artifact settings root).Sound := by
  have metadata := Trail.sound_ofText metadataName
  exact (((Trail.sound_ofText root).append (Trail.sound_ofText _)).append metadata).append (Trail.sound_ofText _)

theorem foldl_artifactNames (named : settings.Named) (names : List String) :
    (artifactNames settings).foldl Path.step names = (steps settings).foldl Path.step names := by
  simp only [artifactNames, steps, List.foldl_append, Trail.foldl_namesOf_segment named.cacheDirName.isSegment,
    Trail.foldl_namesOf_segment named.graphFileName.isSegment, List.foldl_cons, List.foldl_nil]

theorem ofText_artifact (named : settings.Named) (proper : root.Proper) :
    Location.ofText (artifact settings root.text).text = ⟨root.doubled, (steps settings).foldl Path.step root.names⟩ := by
  have rooted := rooted_artifact settings ⟨root, proper, rfl⟩
  have doubled : decide (root.trail.root = "//") = root.doubled := by
    rw [Location.trail]
    cases root.doubled <;> rfl
  rw [Trail.ofText_text (sound_artifact settings root.text) rooted, artifact_eq named.relative proper]
  simp only [doubled, List.foldl_append, Path.foldl_step_names [] root.names proper, List.nil_append, foldl_artifactNames named]

theorem placeOf_artifact {host : Host} (named : settings.Named) (proper : root.Proper)
    (fixed : host.canonical root.text = root.text) : host.placeOf (artifact settings root.text).text
      = ⟨root.doubled, ((steps settings).map host.spelled).foldl Path.step root.names⟩ := by
  have rooted := rooted_artifact settings ⟨root, proper, rfl⟩
  have absolute := isAbsolute_trail rooted (artifact settings root.text).names
  exact Host.placeOf_of_steps absolute (ofText_artifact named proper) (Host.map_spelled proper fixed)

/-- The names of the cache lead to a place below a root. They do so unless the directory is a step up, or is the root
itself and the file is a step up; and one step up is made good where the root is called as the directory it leads to. -/
def StaysInside (settings : Settings) (root : String) : Prop :=
  if settings.cacheDirName = ".." then
    (Path.names root).getLast? = some metadataName ∧ settings.graphFileName ≠ "." ∧ settings.graphFileName ≠ ".."
  else settings.cacheDirName = "." → settings.graphFileName ≠ ".."

section Places

variable (named : settings.Named) (proper : root.Proper) (present : root.names ≠ [])

include named proper present

theorem under_artifact : Under root.names ((steps settings).foldl Path.step root.names) ↔ StaysInside settings root.text := by
  rw [steps, Path.under_steps present named.cacheDirName.isSegment isName_metadataName named.graphFileName.isSegment,
    StaysInside, Path.names_text proper]

theorem under_spelled (host : Host) :
    Under root.names (((steps settings).map host.spelled).foldl Path.step root.names) ↔ StaysInside settings root.text := by
  have metadata : host.spelled metadataName = metadataName := by
    rw [Host.spelled]
    split
    · decide +kernel
    · rfl
  rw [steps, List.map_cons, List.map_cons, List.map_cons, List.map_nil, metadata,
    Path.under_steps present (Host.isSegment_spelled named.cacheDirName.isSegment) isName_metadataName
      (Host.isSegment_spelled named.graphFileName.isSegment), StaysInside, Path.names_text proper]
  simp only [Host.spelled_eq_here, Host.spelled_eq_up, ne_eq]

theorem isBelow_artifact {host : Host} (fixed : host.canonical root.text = root.text) :
    Path.isBelow root.text (host.canonical (artifact settings root.text).text) = true ↔ StaysInside settings root.text := by
  have placed := placeOf_artifact named proper fixed
  have reached := Host.placeOf_proper host (artifact settings root.text).text
  rw [Host.canonical_eq, Path.isBelow_text proper reached present (by rw [placed]), placed,
    under_spelled named proper present host]

end Places

section Ways

theorem onWay_leads {tree : FileTree} {trail : Trail} (sound : trail.Sound) (rooted : trail.root = "/" ∨ trail.root = "//")
    (onWay : tree.OnWay trail spot) : ∃ count, spot = (trail.names.take count).foldl Path.step [] := by
  obtain ⟨count, _, placed⟩ := onWay
  have front : Trail.Sound ⟨trail.root, trail.names.take count⟩ :=
    ⟨sound.root, fun name member => sound.names name (List.mem_of_mem_take member)⟩
  exact ⟨count, by rw [place_leads placed, Trail.ofText_text front rooted]⟩

theorem take_artifactNames (named : settings.Named) (names : List String) (count : Nat) :
    (((artifactNames settings).dropLast.take count).foldl Path.step names) ∈
      [names, Path.step names settings.cacheDirName, (artifactNames settings).dropLast.foldl Path.step names] := by
  rw [artifactNames, Trail.namesOf_segment named.cacheDirName.isSegment, Trail.namesOf_segment named.graphFileName.isSegment]
  by_cases here : settings.cacheDirName = "." <;> by_cases there : settings.graphFileName = "."
  · simp [here, there]
  · rcases count with _ | count
    · simp
    · simp [here, there]
  · rcases count with _ | count
    · simp
    · simp [here, there]
  · rcases count with _ | _ | count
    · simp
    · simp [here, there]
    · simp [here, there]

theorem isSegment_artifactNames (settings : Settings) : ∀ name ∈ artifactNames settings, Path.IsSegment name := by
  intro name member
  rcases List.mem_append.mp member with front | back
  · rcases List.mem_append.mp front with first | middle
    · exact (Trail.sound_ofText settings.cacheDirName).names name first
    · rw [List.mem_singleton.mp middle]
      exact isName_metadataName.isSegment
  · exact (Trail.sound_ofText settings.graphFileName).names name back

theorem parent_artifact (named : settings.Named) (proper : root.Proper) :
    (artifact settings root.text).parent = ⟨root.trail.root, root.names ++ (artifactNames settings).dropLast⟩ := by
  rw [artifact_eq named.relative proper, Trail.parent, List.dropLast_append_of_ne_nil (artifactNames_ne_nil settings)]

section Inside

variable (named : settings.Named) (proper : root.Proper) (present : root.names ≠ []) (inside : StaysInside settings root.text)

include named proper present inside

theorem parent_inside : root.names <+: (artifactNames settings).dropLast.foldl Path.step root.names := by
  have under := (under_artifact named proper present).mpr inside
  have plain := isSegment_artifactNames settings
  rw [← foldl_artifactNames named] at under
  rcases List.eq_nil_or_concat (artifactNames settings) with bare | ⟨front, last, split⟩
  · exact absurd bare (artifactNames_ne_nil settings)
  · rw [List.concat_eq_append] at split
    rw [split, List.foldl_append] at under
    rw [split, List.dropLast_concat]
    exact Path.prefix_of_under_step (plain last (by simp [split])) under

/-- What lies on the way to the saved graph lies on the way to the root, or not outside of it. -/
theorem onWay_artifact {tree : FileTree} (onWay : tree.OnWay (artifact settings root.text).parent spot) :
    spot <+: root.names ∨ root.names <+: spot := by
  have rooted := rooted_artifact settings ⟨root, proper, rfl⟩
  obtain ⟨count, rfl⟩ := onWay_leads (sound_artifact settings root.text).parent rooted onWay
  rw [parent_artifact named proper, List.take_append, List.foldl_append]
  rw [Path.foldl_step_names [] _ fun name member => proper name (List.mem_of_mem_take member), List.nil_append]
  rcases Nat.le_total count root.names.length with above | below
  · rw [Nat.sub_eq_zero_of_le above]
    exact Or.inl (List.take_prefix _ _)
  · rw [List.take_of_length_le below]
    have visited := take_artifactNames named root.names (count - root.names.length)
    simp only [List.mem_cons, List.not_mem_nil, or_false] at visited
    rcases visited with still | stepped | whole
    · rw [still]
      exact Or.inl (List.prefix_refl _)
    · rw [stepped]
      by_cases up : settings.cacheDirName = ".."
      · rw [up, Path.step_up]
        exact Or.inl (List.dropLast_prefix _)
      · exact Or.inr ((Path.prefix_step present named.cacheDirName.isSegment).mpr up)
    · rw [whole]
      exact Or.inr (parent_inside named proper present inside)

theorem under_freshPath {tree : FileTree}
    (placed : tree.place (freshPath tree (artifact settings root.text).parent.text) = .ok spot) : Under root.names spot := by
  have rooted := rooted_artifact settings ⟨root, proper, rfl⟩
  obtain ⟨number, chosen, _⟩ := freshPath_spec tree (artifact settings root.text).parent.text
  have temporary := isName_temporaryName number
  rw [place_leads placed, chosen, Location.ofText_joinTo, Location.join_segment _ temporary.isSegment,
    Path.step_name temporary, Path.under_concat, Trail.ofText_text (sound_artifact settings root.text).parent rooted,
    parent_artifact named proper, List.foldl_append, Path.foldl_step_names [] root.names proper]
  exact parent_inside named proper present inside

/-- A directory that was made on the way to the saved graph, but not below the root, lies on the way to the root. -/
theorem confined_of_changes {before after : FileTree} (changes : ∀ spot, ¬ Under root.names spot →
    after.entry? spot = before.entry? spot ∨ before.entry? spot = none ∧ after.IsDirectoryAt spot
      ∧ after.OnWay (artifact settings root.text).parent spot) : Confined before after root.text := by
  have outside (spot : List String) (apart : ¬ Under root.names spot) : after.entry? spot = before.entry? spot
      ∨ spot <+: root.names ∧ before.entry? spot = none ∧ after.IsDirectoryAt spot := by
    rcases changes spot apart with same | ⟨free, directory, onWay⟩
    · exact Or.inl same
    · refine Or.inr ⟨?_, free, directory⟩
      rcases onWay_artifact named proper present inside onWay with above | below
      · exact above
      · rw [show spot = root.names from by_contra fun differs => apart ⟨below, Ne.symm differs⟩]
  rw [← Path.names_text proper] at outside
  refine ⟨outside, fun directory spot apart => ?_⟩
  obtain ⟨there, _, above⟩ := (look_text_eq_ok proper).mp (isDirectory_iff.mp directory)
  rcases outside spot apart with same | ⟨onWay, free, _⟩
  · exact same
  · rw [Path.names_text proper] at onWay
    have taken : before.IsDirectoryAt spot := by
      rcases Nat.lt_or_eq_of_le onWay.length_le with shorter | whole
      · rw [List.prefix_iff_eq_take.mp onWay]
        exact above _ shorter
      · rw [onWay.eq_of_length whole]
        exact there
    exact absurd (free.symm.trans taken) (by simp)

theorem confined_save (host : Host) (graph : GraphOperand) (world : World) :
    Confined world.tree ((save host (.file root.text (artifact settings root.text)) graph).outcome world).2.tree root.text := by
  have rooted := rooted_artifact settings ⟨root, proper, rfl⟩
  apply confined_of_changes named proper present inside
  obtain ⟨_, _, after, journal, _, _, ran, target, placed, _, _, entries⟩ | ⟨fault, after, ran, leaves⟩ :=
    save_outcome host root.text rooted graph world
  · rw [ran]
    intro spot apart
    apply entries
    rintro rfl
    apply apart
    rw [place_leads placed, ofText_artifact named proper]
    exact (under_artifact named proper present).mpr inside
  · rw [ran]
    exact fun spot _ => leaves.added spot

end Inside

/-- Whatever the settings file holds, the saved graph lies below the root exactly if the names stay inside, and never
further up than the directory that holds the root. If they stay inside, the temporary file lies below the root as well,
and saving changes nothing outside. -/
theorem artifact_inside {host : Host} {configuration : Trail} {world loaded : World} {given : Document} {place : String}
    {trail : Trail} (ran : (Settings.load host configuration).outcome world = (.ok settings, loaded))
    (opened : openFile host settings given = .ok (.file place trail)) (single : place ≠ "/") (double : place ≠ "//") :
    (Path.isBelow place (host.canonical trail.text) = true ↔ StaysInside settings place)
      ∧ (Path.names place).dropLast <+: Path.names (host.canonical trail.text)
      ∧ (StaysInside settings place →
        (∀ (tree : FileTree) (spot : List String), tree.place (freshPath tree trail.parent.text) = .ok spot →
            Under (Path.names place) spot)
          ∧ ∀ graph before, Confined before.tree ((save host (.file place trail) graph).outcome before).2.tree place) := by
  obtain ⟨_, located, same⟩ := bind_eq_ok.mp opened
  cases same
  have named := Settings.named_load ran
  have fixed := Service.canonical_of_locateRoot located
  obtain ⟨root, proper, rfl⟩ := Host.isCanonical_of_fixed fixed
  have present := Path.named_of_isNamedRoot ⟨⟨root, proper, rfl⟩, single, double⟩
  refine ⟨isBelow_artifact named proper present fixed, ?_, fun inside => ⟨fun tree spot placed => ?_, fun graph before => ?_⟩⟩
  · have reached := Host.placeOf_proper host (artifact settings root.text).text
    rw [Host.canonical_eq, Path.names_text proper, Path.names_text reached, placeOf_artifact named proper fixed]
    exact Path.dropLast_prefix_steps (Host.isSegment_spelled named.cacheDirName.isSegment) (Host.isName_spelled isName_metadataName)
      (Host.isSegment_spelled named.graphFileName.isSegment)
  · rw [Path.names_text proper]
    exact under_freshPath named proper present inside placed
  · exact confined_save named proper present inside host graph before

end Ways

section Samples

theorem load_of_names {host : Host} {configuration : Trail} {world : World} {directory file : String}
    (read : ((Settings.load host configuration).outcome world).1.toOption.map
      (fun settings => (settings.cacheDirName, settings.graphFileName)) = some (directory, file)) :
    ∃ settings loaded, (Settings.load host configuration).outcome world = (.ok settings, loaded)
      ∧ settings.cacheDirName = directory ∧ settings.graphFileName = file := by
  rcases ran : (Settings.load host configuration).outcome world with ⟨fault | settings, loaded⟩
  · rw [ran] at read
    cases read
  · rw [ran] at read
    obtain ⟨named, filed⟩ := Prod.mk.inj (Option.some.inj read)
    exact ⟨settings, loaded, rfl, named, filed⟩

theorem openFile_text {host : Host} {path place : String} (present : path ≠ "") (placed : host.canonical path = place)
    (settings : Settings) : openFile host settings (.text path) = .ok (.file place (artifact settings place)) := by
  have located : locateRoot host (.text path) = .ok place := Host.locate_eq_ok.mpr ⟨present, placed⟩
  rw [openFile, located]
  rfl

/-- A cache directory that is the root itself, and the usual file. -/
theorem artifact_inside_here : ∃ settings trail,
    openFile Saved.sampleHost settings (.text ".") = .ok (.file "/w" trail) ∧ settings.cacheDirName = "."
      ∧ Path.isBelow "/w" (Saved.sampleHost.canonical trail.text) = true
      ∧ ∀ graph before, Confined before.tree ((save Saved.sampleHost (.file "/w" trail) graph).outcome before).2.tree "/w" := by
  obtain ⟨settings, loaded, ran, directory, file⟩ := @load_of_names Saved.sampleHost Settings.sampleTrail
    (Settings.fileWorld "cache_dir_name: .\n".toUTF8) "." "graph.json" (by decide +kernel)
  have opened : openFile Saved.sampleHost settings (.text ".") = .ok (.file "/w" (artifact settings "/w")) :=
    openFile_text (by decide) (by decide +kernel) settings
  have inside : StaysInside settings "/w" := by simp [StaysInside, directory, file]
  obtain ⟨below, _, confined⟩ := artifact_inside ran opened (by decide) (by decide)
  exact ⟨settings, _, opened, directory, below.mpr inside, (confined inside).2⟩

def bareWorld : World := { tree := ⟨[(["w"], .directory), (["w", "p"], .directory)]⟩ }

def upTrail : Trail := ⟨"/", ["w", "p", "..", "metadata", "graph.json"]⟩

/-- A cache directory that is a step up: the graph is saved beside the root. -/
theorem artifact_outside : ∃ settings loaded,
    (Settings.load Saved.sampleHost Settings.sampleTrail).outcome (Settings.fileWorld "cache_dir_name: '..'\n".toUTF8)
        = (.ok settings, loaded)
      ∧ openFile Saved.sampleHost settings (.text "/w/p") = .ok (.file "/w/p" upTrail)
      ∧ Path.isBelow "/w/p" (Saved.sampleHost.canonical upTrail.text) = false
      ∧ bareWorld.tree.isFile "/w/metadata/graph.json" = false
      ∧ ((save Saved.sampleHost (.file "/w/p" upTrail) (.graph .empty)).outcome bareWorld).2.tree.isFile
          "/w/metadata/graph.json" = true := by
  obtain ⟨settings, loaded, ran, directory, file⟩ := @load_of_names Saved.sampleHost Settings.sampleTrail
    (Settings.fileWorld "cache_dir_name: '..'\n".toUTF8) ".." "graph.json" (by decide +kernel)
  have trail : artifact settings "/w/p" = upTrail := by
    rw [artifact, directory, file]
    decide +kernel
  have opened : openFile Saved.sampleHost settings (.text "/w/p") = .ok (.file "/w/p" (artifact settings "/w/p")) :=
    openFile_text (by decide) (by decide +kernel) settings
  rw [trail] at opened
  exact ⟨settings, loaded, ran, opened, by decide +kernel, by decide +kernel, by decide +kernel⟩

end Samples

end GraphStore

end DeclGraph
