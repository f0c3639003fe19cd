import DeclGraph.Proofs.SavedGraph

/-!
What a saved graph can come back as. The relative name of a file leads back to the file if it holds no
backslash, and a root without names has the slashes of its files. A graph of such files comes back as itself
or not at all. A backslash is saved as a slash, so that its file comes back as another one.
-/

namespace DeclGraph.Saved

open DependencyMap DeclGraph.Graph

section Leading

variable {host : Host} {root file : String}

theorem recoverable_of_root (doubled : Bool) (rootText : root = Path.Location.text ⟨doubled, []⟩)
    (fixed : host.locate root = .ok root) (below : Path.isBelow root root = true) :
    Recoverable host root root := by
  have name : Path.relativeTo root root = "." := by
    rw [rootText]
    cases doubled <;> decide
  have placed : Path.normalize host.cwd (pathOf root ".") = Path.normalize host.cwd root := by
    have step : pathOf root "." = root ++ "." := by
      rw [rootText]
      cases doubled <;> decide
    rw [step, Path.normalize, Path.normalize, Path.absolute_of_isAbsolute, Path.absolute_of_isAbsolute, rootText]
    · cases doubled <;> decide
    · rw [rootText]
      cases doubled <;> decide
    · rw [rootText]
      cases doubled <;> decide
  refine ⟨fixed, below, ?_, ?_, ?_⟩
  · rw [name]
    decide
  · rw [name]
    decide
  · rw [name, Host.canonical, placed]
    exact (Host.locate_eq_ok.mp fixed).2

/-- Below a root without names, the names of a file lead back to it from a root of as many slashes. -/
theorem recoverable_of_bare (doubled : Bool) (rootText : root = Path.Location.text ⟨doubled, []⟩)
    (fixed : host.locate file = .ok file) (below : Path.isBelow root file = true)
    (plain : '\\' ∉ file.toList.drop root.toList.length) (alike : Path.isDoubled file = Path.isDoubled root) :
    Recoverable host root file := by
  obtain ⟨present, canonical⟩ := Host.locate_eq_ok.mp fixed
  obtain ⟨place, proper, written⟩ := Host.isCanonical_of_fixed canonical
  have bareProper : Path.Location.Proper ⟨doubled, []⟩ := by simp [Path.Location.Proper]
  have slashes : place.doubled = doubled := by
    rw [← Path.isDoubled_text proper, written, alike, rootText, Path.isDoubled_text bareProper]
  have spelled : file = root ++ "/".intercalate place.names := by
    rw [← written, rootText, Path.Location.text, slashes, Path.Location.text]
    simp
  by_cases bare : place.names = []
  · have same : file = root := by simpa [bare] using spelled
    subst same
    exact recoverable_of_root doubled rootText fixed below
  · have plainNames : '\\' ∉ ("/".intercalate place.names).toList := by
      rw [spelled, String.toList_append, List.drop_left] at plain
      exact plain
    have name : Path.relativeTo root file = "/".intercalate place.names := by
      rw [← written, rootText, Path.relativeTo_bare doubled proper bare,
        Path.forwardSlashes_of_plain plainNames]
    have relative := Path.intercalate_isRelative bare proper
    refine ⟨fixed, below, ?_, ?_, ?_⟩
    · rw [name]
      exact relative.1
    · rw [name]
      exact relative.2
    · have joined : pathOf root (Path.relativeTo root file) = file := by
        rw [name, pathOf, Path.segments_intercalate _ (fun name member => (proper name member).noSlash) bare,
          rootText, Path.joinAll_text bareProper proper, ← written, ← slashes]
        rfl
      rw [joined, canonical]

theorem recoverable_of_plain (rooted : host.canonical root = root) (fixed : host.locate file = .ok file)
    (below : Path.isBelow root file = true) (plain : '\\' ∉ file.toList.drop root.toList.length)
    (alike : root = "/" ∨ root = "//" → Path.isDoubled file = Path.isDoubled root) :
    Recoverable host root file := by
  have canonical := Host.isCanonical_of_fixed rooted
  by_cases single : root = "/"
  · exact recoverable_of_bare false single fixed below plain (alike (Or.inl single))
  · by_cases double : root = "//"
    · exact recoverable_of_bare true double fixed below plain (alike (Or.inr double))
    · exact recoverable_of_savable ⟨canonical, single, double⟩ ⟨fixed, below, plain⟩

end Leading

section Reloading

variable {host : Host} {graph : Graph} {root base : String}

def Present (host : Host) (tree : FileTree) (root : String) (graph : Graph) : Prop :=
  tree.isDirectory (Path.absolute host.cwd root) = true ∧ ∀ file, graph.Mentions file → tree.isFile file = true

/-- A text that holds a graph under a root: it gives the graph while the root and the files are there, and
nothing otherwise. -/
structure Holds (host : Host) (text root : String) (graph : Graph) : Prop where
  back : ∀ world : World, Present host world.tree root graph → ∃ again, again.same graph = true
    ∧ (restore host (.text text) (.text root)).outcome world = (.ok (some again), world)
  gone : ∀ world : World, ¬ Present host world.tree root graph →
    ((restore host (.text text) (.text root)).outcome world).1 = .ok none

/-- A graph whose files are led back to by their names is held by the text that it is saved as. -/
theorem write_holds (rooted : host.locate root = .ok base) (formed : Formed host graph)
    (coherent : graph.Coherent) (recoverable : ∀ file, graph.Mentions file → Recoverable host base file) :
    ∃ document, Json.Plain document ∧ write host graph (.text root) = .ok (Json.write .plain document)
      ∧ Holds host (Json.write .plain document) root graph := by
  obtain ⟨present, canonical⟩ := Host.locate_eq_ok.mp rooted
  have upstream : AllRecoverable host base graph.upstream :=
    fun row member file mentioned => recoverable file (Or.inl ⟨row, member, mentioned⟩)
  have downstream : AllRecoverable host base graph.downstream :=
    fun row member file mentioned => recoverable file (Or.inr ⟨row, member, mentioned⟩)
  obtain ⟨text, order, reordered, written, rfl, plain⟩ := write_recoverable rooted formed upstream downstream
  have parsed := Json.parse_write plain
  refine ⟨_, plain, written, ⟨?_, ?_⟩⟩
  · rintro world ⟨directory, there⟩
    refine ⟨order, same_of_reordered formed reordered, ?_⟩
    rw [restore_outcome, readUnder_texts, if_pos ⟨present, directory⟩, parsed, canonical]
    simp only [read_recoverable upstream downstream coherent reordered there]
  · intro world absent
    rw [restore_outcome, readUnder_texts, parsed, canonical]
    by_cases directory : root ≠ "" ∧ world.tree.isDirectory (Path.absolute host.cwd root) = true
    · rw [if_pos directory]
      cases found : read host world.tree base (savedDocument base order) with
      | error rejection => simp only [found]
      | ok again =>
        have there : ∀ file, graph.Mentions file → world.tree.isFile file = true :=
          fun file mentioned => there_of_recoverable upstream downstream reordered found mentioned
        exact absurd ⟨directory.2, there⟩ absent
    · rw [if_neg directory]

/-- A saved graph never turns into another one. Under any spelling of a root, and whatever has become of the
file tree, a valid graph of files below the root comes back as itself or not at all, as long as no name below
the root holds a backslash and a root without names is written with the slashes of its files. -/
theorem restore_never_another (rooted : host.locate root = .ok base) (formed : Formed host graph)
    (valid : graph.violations = [])
    (inside : ∀ file, graph.Mentions file → host.isWithin (.text file) (.text root) = .ok true)
    (plain : ∀ file, graph.Mentions file → '\\' ∉ file.toList.drop base.toList.length)
    (alike : base = "/" ∨ base = "//" →
      ∀ file, graph.Mentions file → Path.isDoubled file = Path.isDoubled base) :
    ∃ text, write host graph (.text root) = .ok text ∧ ∀ world : World,
      ((restore host (.text text) (.text root)).outcome world).1 = .ok none
        ∨ ∃ again, again.same graph = true
          ∧ (restore host (.text text) (.text root)).outcome world = (.ok (some again), world) := by
  have canonical : host.canonical base = base := by
    rw [← (Host.locate_eq_ok.mp rooted).2]
    exact host.canonical_canonical host rfl root
  have coherent := (violations_eq_nil_iff formed.upstreamFormed formed.downstreamFormed).mp valid
  have recoverable : ∀ file, graph.Mentions file → Recoverable host base file := by
    intro file mentioned
    have fixed := formed.fixed file mentioned
    have within := inside file mentioned
    have place : host.locateValue (.text file) = .ok file := fixed
    have located : host.locateValue (.text root) = .ok base := rooted
    rw [Host.isWithin, place, located] at within
    exact recoverable_of_plain canonical fixed (Except.ok.inj within) (plain file mentioned)
      fun bare => alike bare file mentioned
  obtain ⟨document, _, written, holds⟩ := write_holds rooted formed coherent recoverable
  refine ⟨_, written, fun world => ?_⟩
  by_cases there : Present host world.tree root graph
  · exact Or.inr (holds.back world there)
  · exact Or.inl (holds.gone world there)

end Reloading

section Samples

theorem formed_sampleGraph : Formed sampleHost sampleGraph := by
  have made : Graph.ofEntries sampleHost
      (some [(.text "a", .texts ["./b"]), (.text "/w/b", .list [])])
      (some [(.text "/w/a", .list []), (.text "b", .texts ["x/../a"])]) = .ok sampleGraph :=
    eq_ok_of_toOption (by decide +kernel)
  exact formed_ofEntries made

/-- Under the topmost root, spelled from a working directory. -/
theorem restore_never_another_topmost :
    ∃ text, write sampleHost sampleGraph (.text "..") = .ok text ∧ ∀ world : World,
      ((restore sampleHost (.text text) (.text "..")).outcome world).1 = .ok none
        ∨ ∃ again, again.same sampleGraph = true
          ∧ (restore sampleHost (.text text) (.text "..")).outcome world = (.ok (some again), world) := by
  have rooted : sampleHost.locate ".." = .ok "/" := eq_ok_of_toOption (by decide +kernel)
  have valid : sampleGraph.violations = [] := by decide +kernel
  have coherent :=
    (violations_eq_nil_iff formed_sampleGraph.upstreamFormed formed_sampleGraph.downstreamFormed).mp valid
  have listed : ∀ file, sampleGraph.Mentions file → file ∈ ["/w/a", "/w/b"] := fun _ => coherent.key_of_mentions
  have within : ∀ file ∈ ["/w/a", "/w/b"],
      (sampleHost.isWithin (.text file) (.text "..")).toOption = some true := by decide +kernel
  have plain : ∀ file ∈ ["/w/a", "/w/b"], '\\' ∉ file.toList.drop "/".toList.length := by decide +kernel
  have alike : ∀ file ∈ ["/w/a", "/w/b"], Path.isDoubled file = Path.isDoubled "/" := by decide +kernel
  exact restore_never_another rooted formed_sampleGraph valid
    (fun file mentioned => eq_ok_of_toOption (within file (listed file mentioned)))
    (fun file mentioned => plain file (listed file mentioned))
    (fun _ file mentioned => alike file (listed file mentioned))

def loneGraph (file : String) : Graph := ⟨[(file, [])], [(file, [])]⟩

/-- A file with a backslash in its name, and a file in a directory. -/
def backslashTree : FileTree :=
  ⟨[(["w"], .directory), (["w", "a\\b"], .file ByteArray.empty), (["w", "a"], .directory),
    (["w", "a", "b"], .file ByteArray.empty)]⟩

def loneDocument : Document :=
  .object [("formatVersion", .nat 1), ("upstream", .object [("a/b", .texts [])]),
    ("downstream", .object [("a/b", .texts [])])]

theorem plain_loneDocument : Json.Plain loneDocument := by
  have side : Json.Plain (.object [("a/b", .texts [])]) :=
    .object (by decide) fun field member => by
      cases List.mem_singleton.mp member
      exact Json.plain_texts []
  refine .object (by decide) fun field member => ?_
  simp only [List.mem_cons, List.not_mem_nil, or_false] at member
  rcases member with rfl | rfl | rfl
  · exact .digit (by decide : 1 < 10)
  · exact side
  · exact side

/-- The file with the backslash comes back as the other one, though nothing is gone. -/
theorem restore_write_backslash :
    ∃ text, Formed sampleHost (loneGraph "/w/a\\b") ∧ (loneGraph "/w/a\\b").violations = []
      ∧ sampleHost.isWithin (.text "/w/a\\b") (.text "/w") = .ok true
      ∧ Present sampleHost backslashTree "/w" (loneGraph "/w/a\\b")
      ∧ write sampleHost (loneGraph "/w/a\\b") (.text "/w") = .ok text
      ∧ (restore sampleHost (.text text) (.text "/w")).outcome ⟨backslashTree, [], [], [], []⟩ =
        (.ok (some (loneGraph "/w/a/b")), ⟨backslashTree, [], [], [], []⟩)
      ∧ (loneGraph "/w/a/b").same (loneGraph "/w/a\\b") = false := by
  have made : Graph.ofEntries sampleHost (some [(.text "a\\b", .list [])]) (some [(.text "a\\b", .list [])]) =
      .ok (loneGraph "/w/a\\b") := eq_ok_of_toOption (by decide +kernel)
  have formed := formed_ofEntries made
  have valid : (loneGraph "/w/a\\b").violations = [] := by decide +kernel
  have there : ∀ file, (loneGraph "/w/a\\b").Mentions file → backslashTree.isFile file = true := by
    intro file mentioned
    have coherent := (violations_eq_nil_iff formed.upstreamFormed formed.downstreamFormed).mp valid
    cases List.mem_singleton.mp (coherent.key_of_mentions mentioned)
    decide +kernel
  have directory : backslashTree.isDirectory (Path.absolute sampleHost.cwd "/w") = true := by decide +kernel
  have written : (write sampleHost (loneGraph "/w/a\\b") (.text "/w")).toOption =
      some (Json.write .plain loneDocument) := by decide +kernel
  have found : (read sampleHost backslashTree "/w" loneDocument).toOption = some (loneGraph "/w/a/b") := by
    decide +kernel
  have accepted : readUnder sampleHost backslashTree (.text (Json.write .plain loneDocument)) (.text "/w") =
      .ok (.ok (loneGraph "/w/a/b")) :=
    readUnder_eq_ok.mpr ⟨_, "/w", loneDocument, rfl, rfl, by decide, directory,
      Json.parse_write plain_loneDocument, eq_ok_of_toOption found⟩
  refine ⟨_, formed, valid, eq_ok_of_toOption (by decide +kernel), ⟨directory, there⟩,
    eq_ok_of_toOption written, ?_, by decide +kernel⟩
  rw [restore_outcome, accepted]

end Samples

end DeclGraph.Saved
