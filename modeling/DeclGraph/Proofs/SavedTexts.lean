import DeclGraph.Proofs.SavedGraph

/-!
Texts of saved graphs. A graph whose files lie below the root is always written. Whatever is written is a plain
document of relative names, and what it gives when it is read depends on the tree by way of the files that these
names stand for.
-/

namespace DeclGraph.Saved

open DeclGraph.Graph

variable {host : Host} {root : String}

theorem mem_foldl_set {named start : Rows FileSet} {row : String × FileSet}
    (member : row ∈ named.foldl (fun rows row => Rows.set rows row.1 row.2) start) : row ∈ start ∨ row ∈ named := by
  induction named generalizing start with
  | nil => exact Or.inl member
  | cons first rest ih =>
    rcases ih member with old | later
    · rcases mem_set_cases old with rfl | before
      · exact Or.inr List.mem_cons_self
      · exact Or.inl before
    · exact Or.inr (List.mem_cons_of_mem _ later)

theorem relativeRows_below {spelled : String} (rooted : host.locate spelled = .ok root) {map : DependencyMap}
    (files : ∀ row ∈ map, ∀ file, file = row.1 ∨ file ∈ row.2 →
      host.locate file = .ok file ∧ Path.isBelow root file = true) :
    ∃ rows, relativeRows host (.text spelled) map = .ok rows := by
  have name {row : String × FileSet} (member : row ∈ map) {file : String} (mentioned : file = row.1 ∨ file ∈ row.2) :=
    relativeValue_below rooted (files row member file mentioned).1 (files row member file mentioned).2
  let named := map.map fun row => (Path.relativeTo root row.1, row.2)
  have keys : (map.mapM fun row => do
      pure ((← host.relativeValue (.text row.1) (.text spelled)), row.2) : Except Fault (Rows FileSet)) = .ok named := by
    apply mapM_of_each
    intro row member
    rw [name member (Or.inl rfl)]
    rfl
  let joined := named.foldl (fun rows row => Rows.set rows row.1 row.2) []
  have members : ∃ rows, (Rows.sorted joined).mapM (fun row => do
      let members ← row.2.mapM fun file => host.relativeValue (.text file) (.text spelled)
      pure (row.1, FileSet.ofList members)) = (.ok rows : Except Fault (Rows FileSet)) := by
    simp only [mapM_eq_ok]
    apply exists_forall₂
    intro row listed
    have inside : row ∈ joined := (List.mergeSort_perm _ _).mem_iff.mp listed
    obtain none | inNamed := mem_foldl_set inside
    · cases none
    · obtain ⟨given, member, rfl⟩ := List.mem_map.mp inNamed
      refine ⟨_, bind_eq_ok.mpr ⟨_, mapM_of_each fun file held => name member (Or.inr held), rfl⟩⟩
  obtain ⟨rows, made⟩ := members
  exact ⟨rows, bind_eq_ok.mpr ⟨named, keys, made⟩⟩

theorem write_below {spelled : String} (rooted : host.locate spelled = .ok root) {graph : Graph}
    (files : ∀ file, graph.Mentions file → host.locate file = .ok file ∧ Path.isBelow root file = true) :
    ∃ text, write host graph (.text spelled) = .ok text := by
  obtain ⟨upstream, up⟩ := relativeRows_below rooted fun row member file mentioned =>
    files file (Or.inl ⟨row, member, mentioned⟩)
  obtain ⟨downstream, down⟩ := relativeRows_below rooted fun row member file mentioned =>
    files file (Or.inr ⟨row, member, mentioned⟩)
  exact ⟨_, bind_eq_ok.mpr ⟨upstream, up, bind_eq_ok.mpr ⟨downstream, down, rfl⟩⟩⟩

section Written

variable {document : Document}

theorem nodup_set {rows : Rows FileSet} (distinct : (rows.map (·.1)).Nodup) (key : String) (value : FileSet) :
    ((Rows.set rows key value).map (·.1)).Nodup := by
  induction rows with
  | nil => simp [Rows.set]
  | cons first rest ih =>
    obtain ⟨other, old⟩ := first
    rw [List.map_cons, List.nodup_cons] at distinct
    rw [Rows.set]
    split
    · next same =>
      rw [List.map_cons, List.nodup_cons]
      exact distinct
    · next different =>
      rw [List.map_cons, List.nodup_cons]
      refine ⟨?_, ih distinct.2⟩
      intro member
      obtain ⟨row, listed, same⟩ := List.mem_map.mp member
      rcases mem_set_cases listed with rfl | before
      · exact different same.symm
      · exact distinct.1 (List.mem_map.mpr ⟨row, before, same⟩)

theorem nodup_foldl_set {named start : Rows FileSet} (distinct : (start.map (·.1)).Nodup) :
    ((named.foldl (fun rows row => Rows.set rows row.1 row.2) start).map (·.1)).Nodup := by
  induction named generalizing start with
  | nil => exact distinct
  | cons first rest ih => exact ih (nodup_set distinct first.1 first.2)

def NamesFile (host : Host) (root : Document) (map : DependencyMap) (name : String) : Prop :=
  ∃ row ∈ map, ∃ file, (file = row.1 ∨ file ∈ row.2) ∧ host.relativeValue (.text file) root = .ok name

theorem relativeRows_eq_ok {base : Document} {map : DependencyMap} {rows : Rows FileSet}
    (written : relativeRows host base map = .ok rows) : (rows.map (·.1)).Nodup
      ∧ ∀ row ∈ rows, ∀ name, name = row.1 ∨ name ∈ row.2 → NamesFile host base map name := by
  obtain ⟨named, keys, written⟩ := bind_eq_ok.mp written
  have pairs := mapM_eq_ok.mp keys
  have results := mapM_eq_ok.mp written
  -- A row whose key was named keeps its files, and so do the joined rows after sorting.
  have source {row : String × FileSet} (member : row ∈ Rows.sorted
      (named.foldl (fun rows row => Rows.set rows row.1 row.2) [])) :
      ∃ given ∈ map, host.relativeValue (.text given.1) base = .ok row.1 ∧ row.2 = given.2 := by
    obtain none | inNamed := mem_foldl_set ((List.mergeSort_perm _ _).mem_iff.mp member)
    · cases none
    · obtain ⟨given, listed, made⟩ := exists_of_mem_right pairs inNamed
      obtain ⟨name, found, same⟩ := bind_eq_ok.mp made
      cases same
      exact ⟨given, listed, found, rfl⟩
  have kept : List.Forall₂ (fun row result => row.1 = result.1) (Rows.sorted
      (named.foldl (fun rows row => Rows.set rows row.1 row.2) [])) rows := by
    refine results.imp fun row result made => ?_
    obtain ⟨_, _, same⟩ := bind_eq_ok.mp made
    cases same
    rfl
  have sameKeys : (Rows.sorted (named.foldl (fun rows row => Rows.set rows row.1 row.2) [])).map (·.1) = rows.map (·.1) := by
    rw [← List.forall₂_eq_eq_eq, List.forall₂_map_left_iff, List.forall₂_map_right_iff]
    exact kept
  constructor
  · rw [← sameKeys]
    have start : (([] : Rows FileSet).map (·.1)).Nodup := List.nodup_nil
    exact ((List.mergeSort_perm _ _).map _).nodup_iff.mpr (nodup_foldl_set start)
  · intro row member name mentioned
    obtain ⟨before, listed, made⟩ := exists_of_mem_right results member
    obtain ⟨given, inMap, key, files⟩ := source listed
    obtain ⟨members, all, same⟩ := bind_eq_ok.mp made
    cases same
    rcases mentioned with rfl | inside
    · exact ⟨given, inMap, given.1, Or.inl rfl, key⟩
    · obtain ⟨file, held, found⟩ := exists_of_mem_right (mapM_eq_ok.mp all) ((FileSet.mem_ofList _ _).mp inside)
      exact ⟨given, inMap, file, Or.inr (files ▸ held), found⟩

theorem spelled_rowsDocument {p : Char → Prop} {rows : Rows FileSet}
    (each : ∀ row ∈ rows, ∀ name, name = row.1 ∨ name ∈ row.2 → Json.SpelledText p name) :
    Json.Spelled p (rowsDocument rows) := by
  refine .object ?_ ?_
  · intro field member
    obtain ⟨row, listed, rfl⟩ := List.mem_map.mp member
    exact each row listed row.1 (Or.inl rfl)
  · intro field member
    obtain ⟨row, listed, rfl⟩ := List.mem_map.mp member
    exact Json.spelled_texts fun name inside => each row listed name (Or.inr inside)

/-- The text of a graph has bytes if the relative names of its files have. -/
theorem wellFormed_write {base : Document} {graph : Graph} {text : String} (written : write host graph base = .ok text)
    (named : ∀ file name, graph.Mentions file → host.relativeValue (.text file) base = .ok name →
      Text.WellFormed name) : Text.WellFormed text := by
  obtain ⟨upstream, up, written⟩ := bind_eq_ok.mp written
  obtain ⟨downstream, down, same⟩ := bind_eq_ok.mp written
  have spelled := Except.ok.inj same
  subst spelled
  have side {map : DependencyMap} {rows : Rows FileSet} (made : relativeRows host base map = .ok rows)
      (mentioned : ∀ row ∈ map, ∀ file, file = row.1 ∨ file ∈ row.2 → graph.Mentions file) :
      Json.Spelled (Text.isUnpaired · = false) (rowsDocument rows) := by
    apply spelled_rowsDocument
    intro row member name stated c inside
    obtain ⟨given, inMap, file, held, relative⟩ := (relativeRows_eq_ok made).2 row member name stated
    exact Or.inr (named file name (mentioned given inMap file held) relative c inside)
  apply Json.wellFormed_write
  refine .object ?_ ?_
  · have keys : ∀ name ∈ ["formatVersion", "upstream", "downstream"], Text.WellFormed name := by decide
    intro field member c inside
    simp only [List.mem_cons, List.not_mem_nil, or_false] at member
    refine Or.inr (keys field.1 ?_ c inside)
    rcases member with rfl | rfl | rfl <;> simp
  · intro field member
    simp only [List.mem_cons, List.not_mem_nil, or_false] at member
    rcases member with rfl | rfl | rfl
    · exact Json.Spelled.digit (by decide : 1 < 10)
    · exact side up fun row member file held => Or.inl ⟨row, member, held⟩
    · exact side down fun row member file held => Or.inr ⟨row, member, held⟩

/-- What is saved of an argument that can be written has bytes. -/
def Encodable (host : Host) (root : String) (graph : GraphOperand) : Prop :=
  ∀ text, writeOperand host graph (.text root) = .ok text → Text.WellFormed text

def MapsHold (document : Document) (name : Document) : Prop :=
  ∃ entries side rows, document = .map entries ∧ (side = "upstream" ∨ side = "downstream")
    ∧ Entries.get entries side = .map rows ∧ HoldsName rows name

theorem name_of_rowsDocument {rows : Rows FileSet} {entries : Entries} {name : Document}
    (same : rowsDocument rows = .map entries) (held : HoldsName entries name) :
    ∃ row ∈ rows, ∃ text, (text = row.1 ∨ text ∈ row.2) ∧ name = .text text := by
  cases same
  obtain ⟨entry, member, stated⟩ := held
  obtain ⟨field, listed, rfl⟩ := List.mem_map.mp member
  obtain ⟨row, inRows, rfl⟩ := List.mem_map.mp listed
  rcases stated with rfl | ⟨names, same, inside⟩
  · exact ⟨row, inRows, row.1, Or.inl rfl, rfl⟩
  · cases same
    obtain ⟨text, held, rfl⟩ := List.mem_map.mp inside
    exact ⟨row, inRows, text, Or.inr held, rfl⟩

/-- A text that is written is that of a plain document, whose names are relative names of files of the graph. -/
theorem write_eq_ok {base : Document} {graph : Graph} {text : String} (written : write host graph base = .ok text) :
    ∃ document, Json.Plain document ∧ text = Json.write .plain document
      ∧ ∀ name, MapsHold document name → ∃ file spelled, graph.Mentions file ∧ name = .text spelled
        ∧ host.relativeValue (.text file) base = .ok spelled := by
  obtain ⟨upstream, up, written⟩ := bind_eq_ok.mp written
  obtain ⟨downstream, down, same⟩ := bind_eq_ok.mp written
  have spelled := Except.ok.inj same
  subst spelled
  obtain ⟨upDistinct, upNames⟩ := relativeRows_eq_ok up
  obtain ⟨downDistinct, downNames⟩ := relativeRows_eq_ok down
  refine ⟨_, ?_, rfl, ?_⟩
  · have distinct : ["formatVersion", "upstream", "downstream"].Nodup := by decide
    refine .object distinct fun field member => ?_
    simp only [List.mem_cons, List.not_mem_nil, or_false] at member
    rcases member with rfl | rfl | rfl
    · exact Json.Plain.digit (by decide : 1 < 10)
    · exact plain_rowsDocument upDistinct
    · exact plain_rowsDocument downDistinct
  · rintro name ⟨entries, side, rows, same, which, found, held⟩
    cases same
    rcases which with rfl | rfl
    · obtain ⟨row, member, spelled, stated, rfl⟩ := name_of_rowsDocument found held
      obtain ⟨given, inMap, file, mentioned, relative⟩ := upNames row member spelled stated
      exact ⟨file, spelled, Or.inl ⟨given, inMap, mentioned⟩, rfl, relative⟩
    · obtain ⟨row, member, spelled, stated, rfl⟩ := name_of_rowsDocument found held
      obtain ⟨given, inMap, file, mentioned, relative⟩ := downNames row member spelled stated
      exact ⟨file, spelled, Or.inr ⟨given, inMap, mentioned⟩, rfl, relative⟩

end Written

section OtherTrees

variable {here : Host} {tree other : FileTree}

theorem filesOf_congr {names : List Document}
    (same : ∀ name ∈ names, fileOf? here other root name = fileOf? host tree root name) :
    filesOf here other root names = filesOf host tree root names := by
  induction names with
  | nil => rfl
  | cons name rest ih =>
    rw [filesOf, filesOf, same name List.mem_cons_self, ih fun next member => same next (List.mem_cons_of_mem _ member)]

theorem readEntries_congr {entries : Entries} {found : DependencyMap}
    (same : ∀ name, HoldsName entries name → fileOf? here other root name = fileOf? host tree root name) :
    readEntries here other root entries found = readEntries host tree root entries found := by
  induction entries generalizing found with
  | nil => rfl
  | cons entry rest ih =>
    obtain ⟨name, value⟩ := entry
    have key := same (.scalar name) ⟨_, List.mem_cons_self, Or.inl rfl⟩
    have later (more : DependencyMap) : readEntries here other root rest more = readEntries host tree root rest more :=
      ih fun given ⟨entry, member, stated⟩ => same given ⟨entry, List.mem_cons_of_mem _ member, stated⟩
    rw [readEntries, readEntries, key]
    cases fileOf? host tree root (.scalar name) with
    | none => rfl
    | some file =>
      cases value with
      | list names =>
        have members := filesOf_congr fun given inside =>
          same given ⟨_, List.mem_cons_self, Or.inr ⟨names, rfl, inside⟩⟩
        simp only [members, later]
      | _ => rfl

/-- What is read from a document depends on the files that the names in its maps stand for. -/
theorem read_congr (same : ∀ name, MapsHold document name → fileOf? here other root name = fileOf? host tree root name) :
    read here other root document = read host tree root document := by
  cases document with
  | map entries =>
    have side (name : String) (which : name = "upstream" ∨ name = "downstream") :
        readMap here other root name (Entries.get entries name) = readMap host tree root name (Entries.get entries name) := by
      cases found : Entries.get entries name with
      | map rows =>
        rw [readMap, readMap]
        exact readEntries_congr fun given held => same given ⟨entries, name, rows, rfl, which, found, held⟩
      | _ => rfl
    rw [read, read, side _ (Or.inl rfl), side _ (Or.inr rfl)]
  | _ => rfl

end OtherTrees

end DeclGraph.Saved
