import DeclGraph.Graph.Operand
import DeclGraph.Proofs.Reload

/-!
Saving and reloading. A graph whose files lie below a root is saved by relative names, and the saved text
gives the graph back exactly as long as the root is a directory and none of the files is gone. The rows
are saved in the order of their names, which need not be the order of their files; so what is read back
has the rows of the graph in another order.
-/

namespace DeclGraph.Graph

open DependencyMap

/-- What a graph always has: each file has one row in a map, and files go by canonical paths. -/
structure Formed (host : Host) (graph : Graph) : Prop where
  upstreamFormed : graph.upstream.WellFormed
  downstreamFormed : graph.downstream.WellFormed
  fixed : ∀ file, graph.Mentions file → host.locate file = .ok file

section Given

variable {host : Host}

structure FormedMap (host : Host) (map : DependencyMap) : Prop where
  formed : map.WellFormed
  keys : ∀ file ∈ map.keys, host.locate file = .ok file
  members : ∀ key, ∀ file ∈ map.get key, host.locate file = .ok file

theorem FormedMap.fixed {map : DependencyMap} (whole : FormedMap host map) {row : String × FileSet}
    (member : row ∈ map) {file : String} (mentioned : file = row.1 ∨ file ∈ row.2) :
    host.locate file = .ok file := by
  rcases mentioned with rfl | listed
  · exact whole.keys _ (mem_keys_of_mem member)
  · rw [← get_of_mem whole.formed.distinct member] at listed
    exact whole.members _ file listed

theorem fixed_of_locateValue {value : Document} {place : String} (located : host.locateValue value = .ok place) :
    host.locate place = .ok place := by
  obtain ⟨path, _, _, rfl⟩ := Host.locateValue_eq_ok located
  exact Saved.locate_canonical host path

theorem formedMap_addValues {map more : DependencyMap} {name : String} {key values : Document}
    (whole : FormedMap host map) (added : map.addValues host name key values = .ok more) :
    FormedMap host more := by
  by_cases absent : values.isNull = true
  · simp only [addValues, absent, ↓reduceIte] at added
    cases added
  · simp only [addValues, absent, Bool.false_eq_true, ↓reduceIte] at added
    obtain ⟨file, placed, added⟩ := bind_eq_ok.mp added
    cases met : values.elements? with
    | none =>
      rw [met] at added
      cases added
    | some elements =>
      rw [met] at added
      obtain ⟨files, membersPlaced, same⟩ := bind_eq_ok.mp added
      cases same
      have filesFixed : ∀ other ∈ files, host.locate other = .ok other := by
        intro other member
        obtain ⟨value, _, located⟩ := exists_of_mem_right (mapM_eq_ok.mp membersPlaced) member
        exact fixed_of_locateValue located
      refine ⟨wellFormed_add whole.formed file files, ?_, ?_⟩
      · intro other member
        rcases (mem_keys_add map file other files).mp member with rfl | old
        · exact fixed_of_locateValue placed
        · exact whole.keys other old
      · intro key other member
        rcases (mem_get_add map file key other files).mp member with ⟨_, new⟩ | old
        · exact filesFixed other new
        · exact whole.members key other old

theorem formedMap_ofEntries {name : String} {entries : Option Entries} {map : DependencyMap}
    (made : DependencyMap.ofEntries host name entries = .ok map) : FormedMap host map := by
  have run : ∀ (entries : Entries) (start : DependencyMap), FormedMap host start →
      (entries.foldlM (fun map entry => addValues host name map (.scalar entry.1) entry.2) start :
        Except Fault DependencyMap) = .ok map → FormedMap host map := by
    intro entries
    induction entries with
    | nil =>
      intro start whole same
      cases same
      exact whole
    | cons entry rest ih =>
      intro start whole added
      rw [List.foldlM_cons] at added
      obtain ⟨next, first, later⟩ := bind_eq_ok.mp added
      exact ih next (formedMap_addValues whole first) later
  cases entries with
  | none => cases made
  | some entries => exact run entries [] ⟨wellFormed_nil, by simp [keys], by simp⟩ made

theorem formed_ofEntries {upstream downstream : Option Entries} {graph : Graph}
    (made : Graph.ofEntries host upstream downstream = .ok graph) : Formed host graph := by
  obtain ⟨up, upMade, made⟩ := bind_eq_ok.mp made
  obtain ⟨down, downMade, same⟩ := bind_eq_ok.mp made
  cases same
  have upstream := formedMap_ofEntries upMade
  have downstream := formedMap_ofEntries downMade
  refine ⟨upstream.formed, downstream.formed, ?_⟩
  rintro file (⟨row, member, mentioned⟩ | ⟨row, member, mentioned⟩)
  · exact upstream.fixed member mentioned
  · exact downstream.fixed member mentioned

end Given

end DeclGraph.Graph

namespace DeclGraph.Saved

open DependencyMap DeclGraph.Graph

section Names

variable {host : Host} {root file : String}

/-- A file that can be saved under a root: it lies below and its relative name has no backslash. -/
structure Savable (host : Host) (root file : String) : Prop where
  fixed : host.locate file = .ok file
  below : Path.isBelow root file = true
  plain : '\\' ∉ file.toList.drop root.toList.length

def pathOf (root name : String) : String := Path.joinAll root (Path.segments name)

theorem relativeTo_savable (named : Path.IsNamedRoot root) (savable : Savable host root file) :
    Path.relativeTo root file ≠ "" ∧ Path.isAbsolute (Path.relativeTo root file) = false
      ∧ pathOf root (Path.relativeTo root file) = file := by
  have fixed := (Host.locate_eq_ok.mp savable.fixed).2
  obtain ⟨rest, way⟩ := Path.wayDown_of_below named (Host.isCanonical_of_fixed fixed) savable.below
  rw [Path.relativeTo_wayDown way savable.plain, pathOf, Path.segments_wayDown way]
  exact ⟨(Path.wayDown_isRelative way).1, (Path.wayDown_isRelative way).2, way.joined⟩

/-- A file below a root whose relative name, whatever characters it has, leads back to the file. -/
structure Recoverable (host : Host) (root file : String) : Prop where
  fixed : host.locate file = .ok file
  below : Path.isBelow root file = true
  present : Path.relativeTo root file ≠ ""
  relative : Path.isAbsolute (Path.relativeTo root file) = false
  leads : host.canonical (pathOf root (Path.relativeTo root file)) = file

theorem recoverable_of_savable (named : Path.IsNamedRoot root) (savable : Savable host root file) :
    Recoverable host root file := by
  obtain ⟨present, relative, leads⟩ := relativeTo_savable named savable
  refine ⟨savable.fixed, savable.below, present, relative, ?_⟩
  rw [leads, (Host.locate_eq_ok.mp savable.fixed).2]

theorem relativeTo_injective {other : String} (recoverable : Recoverable host root file)
    (also : Recoverable host root other) (same : Path.relativeTo root file = Path.relativeTo root other) :
    file = other := by
  rw [← recoverable.leads, ← also.leads, same]

theorem relativeValue_below {given spelled : String} (rooted : host.locate spelled = .ok root)
    (placed : host.locate given = .ok file) (below : Path.isBelow root file = true) :
    host.relativeValue (.text given) (.text spelled) = .ok (Path.relativeTo root file) := by
  have base : host.locateValue (.text spelled) = .ok root := rooted
  have place : host.locateValue (.text given) = .ok file := placed
  have within : host.isWithin (.text given) (.text spelled) = .ok true := by
    rw [Host.isWithin, place, base]
    exact congrArg Except.ok below
  rw [Host.relativeValue, within, base, place]
  rfl

theorem relativeValue_recoverable {spelled : String} (rooted : host.locate spelled = .ok root)
    (recoverable : Recoverable host root file) :
    host.relativeValue (.text file) (.text spelled) = .ok (Path.relativeTo root file) :=
  relativeValue_below rooted recoverable.fixed recoverable.below

theorem fileOf?_relativeTo (recoverable : Recoverable host root file) (tree : FileTree) :
    fileOf? host tree root (.text (Path.relativeTo root file)) =
      if tree.isFile file = true then some file else none := by
  have refused : ¬ (Path.relativeTo root file = "" ∨ Path.isAbsolute (Path.relativeTo root file) = true) := by
    simp [recoverable.present, recoverable.relative]
  have leads := recoverable.leads
  rw [pathOf] at leads
  rw [fileOf?, if_neg refused, leads]
  simp [recoverable.below]

end Names

section Writing

variable {host : Host} {root : String} {map : DependencyMap}

theorem set_new {α : Type} (rows : Rows α) (row : String × α) (new : row.1 ∉ rows.map (·.1)) :
    Rows.set rows row.1 row.2 = rows ++ [row] := by
  induction rows with
  | nil => rfl
  | cons first rest ih =>
    simp only [List.map_cons, List.mem_cons, not_or] at new
    rw [Rows.set, if_neg (Ne.symm new.1), ih new.2, List.cons_append]

def AllSavable (host : Host) (root : String) (map : DependencyMap) : Prop :=
  ∀ row ∈ map, ∀ file, file = row.1 ∨ file ∈ row.2 → Savable host root file

def AllRecoverable (host : Host) (root : String) (map : DependencyMap) : Prop :=
  ∀ row ∈ map, ∀ file, file = row.1 ∨ file ∈ row.2 → Recoverable host root file

theorem AllSavable.recoverable (named : Path.IsNamedRoot root) (savable : AllSavable host root map) :
    AllRecoverable host root map :=
  fun row member file mentioned => recoverable_of_savable named (savable row member file mentioned)

theorem AllRecoverable.of_perm {order : DependencyMap} (recoverable : AllRecoverable host root map)
    (permuted : List.Perm order map) : AllRecoverable host root order :=
  fun row member => recoverable row (permuted.mem_iff.mp member)

def savedRow (root : String) (row : String × FileSet) : String × FileSet :=
  (Path.relativeTo root row.1, FileSet.ofList (row.2.map (Path.relativeTo root)))

theorem distinct_names (recoverable : AllRecoverable host root map) (distinct : map.keys.Nodup) :
    (map.map fun row => Path.relativeTo root row.1).Nodup := by
  have keys : map.map (fun row => Path.relativeTo root row.1) = map.keys.map (Path.relativeTo root) := by
    simp [keys]
  rw [keys]
  apply List.Nodup.map_on _ distinct
  intro file member other also same
  obtain ⟨row, listed, rfl⟩ := List.mem_map.mp member
  obtain ⟨otherRow, otherListed, rfl⟩ := List.mem_map.mp also
  exact relativeTo_injective (recoverable row listed _ (Or.inl rfl))
    (recoverable otherRow otherListed _ (Or.inl rfl)) same

/-- Saving names every row and loses none: the rows of the map come out in some order. -/
theorem relativeRows_recoverable {spelled : String} (rooted : host.locate spelled = .ok root)
    (recoverable : AllRecoverable host root map) (distinct : map.keys.Nodup) :
    ∃ order : DependencyMap, List.Perm order map
      ∧ relativeRows host (.text spelled) map = .ok (order.map (savedRow root)) := by
  -- Sorting the rows by name is sorting those of the map by the names of their files.
  let byName (row : String × FileSet) : String × FileSet := (Path.relativeTo root row.1, row.2)
  let order := map.mergeSort fun a b => decide ((byName a).1 ≤ (byName b).1)
  have permuted : List.Perm order map := List.mergeSort_perm _ _
  have rowsNamed : (map.mapM fun row => do
      pure ((← host.relativeValue (.text row.1) (.text spelled)), row.2) : Except Fault (Rows FileSet)) =
      .ok (map.map byName) := by
    apply mapM_of_each
    intro row member
    rw [relativeValue_recoverable rooted (recoverable row member _ (Or.inl rfl))]
    rfl
  have joined : (map.map byName).foldl (fun rows row => Rows.set rows row.1 row.2) [] = map.map byName := by
    apply foldl_put_distinct set_new []
    simpa [Function.comp_def, byName] using distinct_names recoverable distinct
  have sorted : Rows.sorted (map.map byName) = order.map byName := by
    symm
    apply List.map_mergeSort
    intro _ _ _ _
    rfl
  refine ⟨order, permuted, ?_⟩
  rw [relativeRows, rowsNamed]
  show ((Rows.sorted ((map.map byName).foldl (fun rows row => Rows.set rows row.1 row.2) [])).mapM _ :
    Except Fault (Rows FileSet)) = _
  rw [joined, sorted, List.mapM_map]
  apply mapM_of_each
  intro row member
  have inside := permuted.mem_iff.mp member
  have membersNamed : row.2.mapM (fun file => host.relativeValue (.text file) (.text spelled)) =
      .ok (row.2.map (Path.relativeTo root)) :=
    mapM_of_each fun file listed => relativeValue_recoverable rooted (recoverable row inside file (Or.inr listed))
  show ((row.2.mapM fun file => host.relativeValue (.text file) (.text spelled)) >>= _) = _
  rw [membersNamed]
  rfl

theorem plain_rowsDocument {rows : Rows FileSet} (distinct : (rows.map (·.1)).Nodup) :
    Json.Plain (rowsDocument rows) := by
  refine .object (by simpa [Function.comp_def] using distinct) fun field member => ?_
  obtain ⟨row, _, rfl⟩ := List.mem_map.mp member
  exact Json.plain_texts row.2

end Writing

section ReadingBack

variable {host : Host} {tree : FileTree} {root : String}

def savedEntries (root : String) (order : DependencyMap) : Entries :=
  order.map fun row => (.text (Path.relativeTo root row.1),
    .list ((FileSet.ofList (row.2.map (Path.relativeTo root))).map .text))

theorem rowsDocument_saved (root : String) (order : DependencyMap) :
    rowsDocument (order.map (savedRow root)) = .map (savedEntries root order) := by
  simp [rowsDocument, Document.object, savedEntries, savedRow, Document.texts, Function.comp_def]

theorem ofList_pathOf {set : FileSet} (sorted : set.Increasing)
    (recoverable : ∀ file ∈ set, Recoverable host root file) :
    FileSet.ofList ((FileSet.ofList (set.map (Path.relativeTo root))).map
      fun name => host.canonical (pathOf root name)) = set := by
  apply FileSet.eq_of_same_members (FileSet.increasing_ofList _) sorted
  intro file
  simp only [FileSet.mem_ofList, List.mem_map]
  constructor
  · rintro ⟨_, ⟨other, member, rfl⟩, rfl⟩
    rwa [(recoverable other member).leads]
  · intro member
    exact ⟨_, ⟨file, member, rfl⟩, (recoverable file member).leads⟩

theorem filesOf_saved {set : FileSet} (recoverable : ∀ file ∈ set, Recoverable host root file)
    (there : ∀ file ∈ set, tree.isFile file = true) :
    filesOf host tree root ((FileSet.ofList (set.map (Path.relativeTo root))).map .text) =
      .ok ((FileSet.ofList (set.map (Path.relativeTo root))).map
        fun name => host.canonical (pathOf root name)) := by
  rw [filesOf_eq_ok, List.forall₂_map_left_iff, List.forall₂_map_right_iff, List.forall₂_same]
  intro name member
  obtain ⟨file, listed, rfl⟩ := List.mem_map.mp ((FileSet.mem_ofList _ _).mp member)
  rw [fileOf?_relativeTo (recoverable file listed), if_pos (there file listed), (recoverable file listed).leads]

/-- Reading saved rows sets the row of each file in turn. -/
theorem readEntries_saved {order found : DependencyMap}
    (recoverable : AllRecoverable host root order) (increasing : ∀ row ∈ order, FileSet.Increasing row.2)
    (there : ∀ row ∈ order, ∀ file, file = row.1 ∨ file ∈ row.2 → tree.isFile file = true) :
    readEntries host tree root (savedEntries root order) found =
      .ok (order.foldl (fun rows row => Rows.set rows row.1 row.2) found) := by
  induction order generalizing found with
  | nil => rfl
  | cons row rest ih =>
    have key : fileOf? host tree root (.text (Path.relativeTo root row.1)) = some row.1 := by
      rw [fileOf?_relativeTo (recoverable row List.mem_cons_self _ (Or.inl rfl)),
        if_pos (there row List.mem_cons_self _ (Or.inl rfl))]
    have own : ∀ file ∈ row.2, Recoverable host root file :=
      fun file member => recoverable row List.mem_cons_self file (Or.inr member)
    have members := filesOf_saved own
      (fun file member => there row List.mem_cons_self file (Or.inr member))
    have set := ofList_pathOf (increasing row List.mem_cons_self) own
    rw [savedEntries, List.map_cons, readEntries, key]
    simp only [members]
    show readEntries host tree root (savedEntries root rest) (Rows.set found row.1 (FileSet.ofList _)) = _
    rw [set, List.foldl_cons]
    exact ih (fun row member => recoverable row (List.mem_cons_of_mem _ member))
      (fun row member => increasing row (List.mem_cons_of_mem _ member))
      (fun row member => there row (List.mem_cons_of_mem _ member))

theorem readMap_saved {order : DependencyMap} (formed : order.WellFormed)
    (recoverable : AllRecoverable host root order)
    (there : ∀ row ∈ order, ∀ file, file = row.1 ∨ file ∈ row.2 → tree.isFile file = true) (side : String) :
    readMap host tree root side (.map (savedEntries root order)) = .ok order := by
  rw [readMap, readEntries_saved recoverable formed.increasing there]
  exact congrArg Except.ok (foldl_put_distinct set_new [] order formed.distinct)

theorem stands_of_readEntries {entries : Entries} {found map : DependencyMap}
    (read : readEntries host tree root entries found = .ok map) {name : Document}
    (held : HoldsName entries name) : ∃ file, fileOf? host tree root name = some file := by
  induction entries generalizing found with
  | nil =>
    obtain ⟨entry, member, _⟩ := held
    cases member
  | cons entry rest ih =>
    rcases entry with ⟨key, value⟩
    rw [readEntries] at read
    split at read
    next => cases read
    next file stands =>
      split at read
      next names =>
        obtain ⟨files, members, read⟩ := bind_eq_ok.mp read
        obtain ⟨entry, member, place⟩ := held
        rcases List.mem_cons.mp member with rfl | later
        · rcases place with rfl | ⟨others, same, inside⟩
          · exact ⟨file, stands⟩
          · cases same
            obtain ⟨file, _, found⟩ := exists_of_mem_left (filesOf_eq_ok.mp members) inside
            exact ⟨file, found⟩
        · exact ih read ⟨entry, later, place⟩
      next => cases read

theorem there_of_readMap {order map : DependencyMap} {side : String}
    (recoverable : AllRecoverable host root order)
    (read : readMap host tree root side (.map (savedEntries root order)) = .ok map)
    {row : String × FileSet} (member : row ∈ order) {file : String} (mentioned : file = row.1 ∨ file ∈ row.2) :
    tree.isFile file = true := by
  have held : HoldsName (savedEntries root order) (.text (Path.relativeTo root file)) := by
    refine ⟨_, List.mem_map.mpr ⟨row, member, rfl⟩, ?_⟩
    rcases mentioned with rfl | listed
    · exact Or.inl rfl
    · refine Or.inr ⟨_, rfl, List.mem_map.mpr ⟨_, ?_, rfl⟩⟩
      exact (FileSet.mem_ofList _ _).mpr (List.mem_map.mpr ⟨file, listed, rfl⟩)
  obtain ⟨other, stands⟩ := stands_of_readEntries read held
  rw [fileOf?_relativeTo (recoverable row member file mentioned)] at stands
  split at stands
  next there => exact there
  next => cases stands

end ReadingBack

section WholeGraphs

variable {host : Host} {root : String} {graph : Graph}

def savedDocument (root : String) (order : Graph) : Document :=
  .object [("formatVersion", .int formatVersion), ("upstream", .map (savedEntries root order.upstream)),
    ("downstream", .map (savedEntries root order.downstream))]

/-- The rows of a graph in other orders. -/
structure Reordered (order graph : Graph) : Prop where
  upstream : List.Perm order.upstream graph.upstream
  downstream : List.Perm order.downstream graph.downstream

theorem plain_savedDocument {order : Graph} (upstream : AllRecoverable host root order.upstream)
    (downstream : AllRecoverable host root order.downstream)
    (upstreamFormed : order.upstream.WellFormed) (downstreamFormed : order.downstream.WellFormed) :
    Json.Plain (savedDocument root order) := by
  have version : Json.Plain (.int formatVersion) := Json.Plain.digit (by decide : 1 < 10)
  have side {map : DependencyMap} (recoverable : AllRecoverable host root map) (formed : map.WellFormed) :
      Json.Plain (.map (savedEntries root map)) := by
    rw [← rowsDocument_saved]
    apply plain_rowsDocument
    simpa [Function.comp_def, savedRow] using distinct_names recoverable formed.distinct
  have distinct : ["formatVersion", "upstream", "downstream"].Nodup := by decide
  refine .object distinct fun field member => ?_
  simp only [List.mem_cons, List.not_mem_nil, or_false] at member
  rcases member with rfl | rfl | rfl
  · exact version
  · exact side upstream upstreamFormed
  · exact side downstream downstreamFormed

theorem write_recoverable {spelled : String} (rooted : host.locate spelled = .ok root)
    (formed : Formed host graph) (upstream : AllRecoverable host root graph.upstream)
    (downstream : AllRecoverable host root graph.downstream) :
    ∃ text order, Reordered order graph ∧ write host graph (.text spelled) = .ok text
      ∧ text = Json.write .plain (savedDocument root order) ∧ Json.Plain (savedDocument root order) := by
  obtain ⟨up, upPermuted, upNamed⟩ :=
    relativeRows_recoverable rooted upstream formed.upstreamFormed.distinct
  obtain ⟨down, downPermuted, downNamed⟩ :=
    relativeRows_recoverable rooted downstream formed.downstreamFormed.distinct
  have plain : Json.Plain (savedDocument root ⟨up, down⟩) :=
    plain_savedDocument (upstream.of_perm upPermuted) (downstream.of_perm downPermuted)
      (wellFormed_of_perm formed.upstreamFormed upPermuted)
      (wellFormed_of_perm formed.downstreamFormed downPermuted)
  refine ⟨_, ⟨up, down⟩, ⟨upPermuted, downPermuted⟩, ?_, rfl, plain⟩
  rw [write, upNamed, downNamed, savedDocument, ← rowsDocument_saved, ← rowsDocument_saved]
  rfl

theorem write_savable (rooted : host.locate root = .ok root) (named : Path.IsNamedRoot root)
    (formed : Formed host graph) (upstream : AllSavable host root graph.upstream)
    (downstream : AllSavable host root graph.downstream) :
    ∃ text order, Reordered order graph ∧ write host graph (.text root) = .ok text
      ∧ Json.parse text = .ok (savedDocument root order) := by
  obtain ⟨text, order, reordered, written, rfl, plain⟩ :=
    write_recoverable rooted formed (upstream.recoverable named) (downstream.recoverable named)
  exact ⟨_, order, reordered, written, Json.parse_write plain⟩

theorem read_savedDocument {tree : FileTree} {order again : Graph} :
    read host tree root (savedDocument root order) = .ok again ↔
      readMap host tree root "upstream" (.map (savedEntries root order.upstream)) = .ok again.upstream
        ∧ readMap host tree root "downstream" (.map (savedEntries root order.downstream)) = .ok again.downstream
        ∧ again.isValid = true := by
  rw [read_eq_ok]
  constructor
  · rintro ⟨entries, same, _, upstream, downstream, valid⟩
    cases same
    exact ⟨upstream, downstream, valid⟩
  · rintro ⟨upstream, downstream, valid⟩
    exact ⟨_, rfl, rfl, upstream, downstream, valid⟩

/-- The root is a directory and every file of the graph is there. -/
def Intact (tree : FileTree) (root : String) (graph : Graph) : Prop :=
  tree.isDirectory root = true ∧ ∀ file, graph.Mentions file → tree.isFile file = true

/-- With every file there, the graph comes back with its rows in the saved orders. -/
theorem read_recoverable {tree : FileTree} {order : Graph} (upstream : AllRecoverable host root graph.upstream)
    (downstream : AllRecoverable host root graph.downstream) (coherent : graph.Coherent)
    (reordered : Reordered order graph) (there : ∀ file, graph.Mentions file → tree.isFile file = true) :
    read host tree root (savedDocument root order) = .ok order := by
  have again : order.Coherent := coherent_of_perm coherent reordered.upstream reordered.downstream
  refine read_savedDocument.mpr ⟨?_, ?_, (isValid_iff order).mpr again.violations_eq_nil⟩
  · exact readMap_saved again.upstreamFormed (upstream.of_perm reordered.upstream)
      (fun row member file mentioned =>
        there file (Or.inl ⟨row, reordered.upstream.mem_iff.mp member, mentioned⟩)) _
  · exact readMap_saved again.downstreamFormed (downstream.of_perm reordered.downstream)
      (fun row member file mentioned =>
        there file (Or.inr ⟨row, reordered.downstream.mem_iff.mp member, mentioned⟩)) _

theorem there_of_recoverable {tree : FileTree} {order again : Graph}
    (upstream : AllRecoverable host root graph.upstream) (downstream : AllRecoverable host root graph.downstream)
    (reordered : Reordered order graph) (found : read host tree root (savedDocument root order) = .ok again)
    {file : String} (mentioned : graph.Mentions file) : tree.isFile file = true := by
  obtain ⟨up, down, _⟩ := read_savedDocument.mp found
  rcases mentioned with ⟨row, member, stated⟩ | ⟨row, member, stated⟩
  · exact there_of_readMap (upstream.of_perm reordered.upstream) up (reordered.upstream.mem_iff.mpr member) stated
  · exact there_of_readMap (downstream.of_perm reordered.downstream) down
      (reordered.downstream.mem_iff.mpr member) stated

theorem read_intact (named : Path.IsNamedRoot root) {tree : FileTree} {order : Graph}
    (upstream : AllSavable host root graph.upstream) (downstream : AllSavable host root graph.downstream)
    (coherent : graph.Coherent) (reordered : Reordered order graph)
    (there : ∀ file, graph.Mentions file → tree.isFile file = true) :
    read host tree root (savedDocument root order) = .ok order :=
  read_recoverable (upstream.recoverable named) (downstream.recoverable named) coherent reordered there

theorem there_of_read (named : Path.IsNamedRoot root) {tree : FileTree} {order again : Graph}
    (upstream : AllSavable host root graph.upstream) (downstream : AllSavable host root graph.downstream)
    (reordered : Reordered order graph) (found : read host tree root (savedDocument root order) = .ok again)
    {file : String} (mentioned : graph.Mentions file) : tree.isFile file = true :=
  there_of_recoverable (upstream.recoverable named) (downstream.recoverable named) reordered found mentioned

theorem same_of_reordered {order : Graph} (formed : Formed host graph) (reordered : Reordered order graph) :
    order.same graph = true := by
  rw [Graph.same, Bool.and_eq_true]
  exact ⟨same_of_perm formed.upstreamFormed reordered.upstream,
    same_of_perm formed.downstreamFormed reordered.downstream⟩

end WholeGraphs

/-- A graph is saved under a root that all its files lie below, and what the text gives later depends on
the file tree alone: the same graph while the root is a directory and every file of the graph is there,
and nothing at all otherwise. -/
theorem restore_write {host : Host} {graph : Graph} {root : String} (formed : Formed host graph)
    (valid : graph.violations = []) (rooted : host.locate root = .ok root) (single : root ≠ "/")
    (double : root ≠ "//")
    (inside : ∀ file, graph.Mentions file → host.isWithin (.text file) (.text root) = .ok true)
    (plain : ∀ file, graph.Mentions file → '\\' ∉ file.toList.drop root.toList.length) :
    ∃ text, write host graph (.text root) = .ok text ∧ ∀ world : World,
      (Intact world.tree root graph → ∃ again, again.same graph = true
        ∧ (restore host (.text text) (.text root)).outcome world = (.ok (some again), world))
      ∧ (¬ Intact world.tree root graph →
        ((restore host (.text text) (.text root)).outcome world).1 = .ok none) := by
  obtain ⟨present, fixedRoot⟩ := Host.locate_eq_ok.mp rooted
  have canonical := Host.isCanonical_of_fixed fixedRoot
  have named : Path.IsNamedRoot root := ⟨canonical, single, double⟩
  have savable : ∀ file, graph.Mentions file → Savable host root file := by
    intro file mentioned
    have within := inside file mentioned
    have place : host.locateValue (.text file) = .ok file := formed.fixed file mentioned
    have base : host.locateValue (.text root) = .ok root := rooted
    rw [Host.isWithin, place, base] at within
    exact ⟨formed.fixed file mentioned, Except.ok.inj within, plain file mentioned⟩
  have upstream : AllSavable host root graph.upstream :=
    fun row member file mentioned => savable file (Or.inl ⟨row, member, mentioned⟩)
  have downstream : AllSavable host root graph.downstream :=
    fun row member file mentioned => savable file (Or.inr ⟨row, member, mentioned⟩)
  have coherent := (violations_eq_nil_iff formed.upstreamFormed formed.downstreamFormed).mp valid
  obtain ⟨text, order, reordered, written, parsed⟩ :=
    write_savable rooted named formed upstream downstream
  have spelled : Path.absolute host.cwd root = root := by
    obtain ⟨place, _, rfl⟩ := canonical
    exact Path.absolute_of_isAbsolute (Path.isAbsolute_text place) host.cwd
  refine ⟨text, written, fun world => ⟨?_, ?_⟩⟩
  · rintro ⟨directory, there⟩
    refine ⟨order, same_of_reordered formed reordered, ?_⟩
    rw [restore_outcome, readUnder_texts, spelled, if_pos ⟨present, directory⟩, parsed, fixedRoot]
    simp only [read_intact named upstream downstream coherent reordered there]
  · intro broken
    rw [restore_outcome, readUnder_texts, spelled]
    -- The text is well formed in every tree: it gives a graph, or the root or a file is missing.
    split
    next again found =>
      exfalso
      apply broken
      split at found
      next rooted =>
        rw [parsed, fixedRoot] at found
        exact ⟨rooted.2, fun file mentioned =>
          there_of_read named upstream downstream reordered (Except.ok.inj found) mentioned⟩
      next => cases found
    next => rfl
    next fault found =>
      split at found
      next => rw [parsed] at found; cases found
      next => cases found

def oddFiles : List String := ["/w/\"q\n", "/w/é\x01/b c"]

def oddGraph : Graph :=
  ⟨[("/w/\"q\n", ["/w/é\x01/b c"]), ("/w/é\x01/b c", [])],
    [("/w/\"q\n", []), ("/w/é\x01/b c", ["/w/\"q\n"])]⟩

def oddTree : FileTree :=
  ⟨[(["w"], .directory), (["w", "é\x01"], .directory), (["w", "\"q\n"], .file ByteArray.empty),
    (["w", "é\x01", "b c"], .file ByteArray.empty)]⟩

theorem formed_oddGraph : Formed sampleHost oddGraph := by
  have made : Graph.ofEntries sampleHost
      (some [(.text "./\"q\n", .texts ["é\x01//b c"]), (.text "é\x01/b c", .list [])])
      (some [(.text "\"q\n", .list []), (.text "/w/é\x01/b c", .texts ["../w/\"q\n"])]) = .ok oddGraph :=
    eq_ok_of_toOption (by decide +kernel)
  exact formed_ofEntries made

theorem restore_write_oddGraph :
    ∃ text, write sampleHost oddGraph (.text "/w") = .ok text
      ∧ (∃ again, again.same oddGraph = true
        ∧ (restore sampleHost (.text text) (.text "/w")).outcome ⟨oddTree, [], [], [], []⟩ =
          (.ok (some again), ⟨oddTree, [], [], [], []⟩))
      ∧ ((restore sampleHost (.text text) (.text "/w")).outcome sampleWorld).1 = .ok none := by
  have valid : oddGraph.violations = [] := by decide +kernel
  have rooted : sampleHost.locate "/w" = .ok "/w" := eq_ok_of_toOption (by decide +kernel)
  have coherent :=
    (violations_eq_nil_iff formed_oddGraph.upstreamFormed formed_oddGraph.downstreamFormed).mp valid
  have listed : ∀ file, oddGraph.Mentions file → file ∈ oddFiles := fun _ => coherent.key_of_mentions
  have within : ∀ file ∈ oddFiles,
      (sampleHost.isWithin (.text file) (.text "/w")).toOption = some true := by decide +kernel
  have plain : ∀ file ∈ oddFiles, '\\' ∉ file.toList.drop "/w".toList.length := by decide +kernel
  have there : ∀ file ∈ oddFiles, oddTree.isFile file = true := by decide +kernel
  have gone : sampleWorld.tree.isFile "/w/é\x01/b c" = false := by decide +kernel
  obtain ⟨text, written, later⟩ := restore_write formed_oddGraph valid rooted (by decide) (by decide)
    (fun file mentioned => eq_ok_of_toOption (within file (listed file mentioned)))
    (fun file mentioned => plain file (listed file mentioned))
  refine ⟨text, written, (later _).1 ⟨by decide +kernel, fun file mentioned => there file (listed file mentioned)⟩,
    (later _).2 fun intact => ?_⟩
  have missing := intact.2 "/w/é\x01/b c" (Or.inl ⟨_, List.mem_cons_self, Or.inr List.mem_cons_self⟩)
  rw [gone] at missing
  cases missing

end DeclGraph.Saved
