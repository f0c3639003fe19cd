import DeclGraph.Proofs.Reload

/-!
Which relations of a saved map come back. Several names of a map can lead to one file: then the entry that
was written last counts, and what an earlier one lists alone is lost. Nothing is lost exactly when each file's
last entry lists all that the entries of the file list, and nothing is ever added.
-/

namespace DeclGraph.Saved

open DependencyMap DeclGraph.Graph

section Relations

variable {host : Host} {tree : FileTree} {root : String}

def Lists (host : Host) (root : String) (value : Document) (file : String) : Prop :=
  ∃ names, value = .list names ∧ ∃ name ∈ names, LeadsTo host root name file

/-- The entries relate the first file to the second: an entry of the first lists the second. -/
def Relates (host : Host) (root : String) (entries : Entries) (file other : String) : Prop :=
  ∃ entry ∈ entries, LeadsTo host root (.scalar entry.1) file ∧ Lists host root entry.2 other

/-- The value of the last entry of a file. -/
inductive LastOf (host : Host) (root file : String) : Entries → Document → Prop
  | here {name : Scalar} {value : Document} {rest : Entries}
      (leads : LeadsTo host root (.scalar name) file)
      (final : ∀ later ∈ rest, ¬ LeadsTo host root (.scalar later.1) file) :
      LastOf host root file ((name, value) :: rest) value
  | later {entry : Scalar × Document} {value : Document} {rest : Entries}
      (last : LastOf host root file rest value) : LastOf host root file (entry :: rest) value

/-- The last entry of each file lists whatever any entry of the file lists. -/
def Unshadowed (host : Host) (root : String) (entries : Entries) : Prop :=
  ∀ file last, LastOf host root file entries last →
    ∀ other, Relates host root entries file other → Lists host root last other

theorem LastOf.entry {file : String} {entries : Entries} {value : Document}
    (last : LastOf host root file entries value) :
    ∃ entry ∈ entries, LeadsTo host root (.scalar entry.1) file ∧ entry.2 = value := by
  induction last with
  | here leads _ => exact ⟨_, List.mem_cons_self, leads, rfl⟩
  | later _ ih =>
    obtain ⟨entry, member, leads, same⟩ := ih
    exact ⟨entry, List.mem_cons_of_mem _ member, leads, same⟩

theorem LastOf.unique {file : String} {entries : Entries} {value again : Document}
    (last : LastOf host root file entries value) (other : LastOf host root file entries again) : value = again := by
  induction last with
  | here _ final =>
    cases other with
    | here => rfl
    | later last =>
      obtain ⟨entry, member, leads, _⟩ := last.entry
      exact absurd leads (final entry member)
  | later last ih =>
    cases other with
    | here _ final =>
      obtain ⟨entry, member, leads, _⟩ := last.entry
      exact absurd leads (final entry member)
    | later again => exact ih again

theorem LastOf.exists {file : String} {entries : Entries}
    (named : ∃ entry ∈ entries, LeadsTo host root (.scalar entry.1) file) :
    ∃ value, LastOf host root file entries value := by
  induction entries with
  | nil => simp at named
  | cons first rest ih =>
    by_cases more : ∃ later ∈ rest, LeadsTo host root (.scalar later.1) file
    · obtain ⟨value, last⟩ := ih more
      exact ⟨value, .later last⟩
    · obtain ⟨entry, member, leads⟩ := named
      rcases List.mem_cons.mp member with rfl | within
      · exact ⟨_, .here leads fun later inside follows => more ⟨later, inside, follows⟩⟩
      · exact absurd ⟨entry, within, leads⟩ more

theorem leadsTo_iff_of_fileOf? {name : Document} {file other : String}
    (stands : fileOf? host tree root name = some file) : LeadsTo host root name other ↔ other = file := by
  obtain ⟨text, rfl, present, relative, leads, _⟩ := fileOf?_eq_some.mp stands
  constructor
  · rintro ⟨again, same, _, _, follows⟩
    cases same
    rw [← follows, leads]
  · rintro rfl
    exact ⟨text, rfl, present, relative, leads⟩

theorem lists_iff_of_filesOf {names : List Document} {files : List String} {other : String}
    (found : filesOf host tree root names = .ok files) :
    Lists host root (.list names) other ↔ other ∈ FileSet.ofList files := by
  have stand := filesOf_eq_ok.mp found
  rw [FileSet.mem_ofList]
  constructor
  · rintro ⟨_, same, name, member, leads⟩
    cases same
    obtain ⟨file, listed, stands⟩ := exists_of_mem_left stand member
    exact (leadsTo_iff_of_fileOf? stands).mp leads ▸ listed
  · intro listed
    obtain ⟨name, member, stands⟩ := exists_of_mem_right stand listed
    exact ⟨names, rfl, name, member, (leadsTo_iff_of_fileOf? stands).mpr rfl⟩

/-- What a map holds for a file after entries were read on top of one: the set of the file's last entry, or
what it held if there is no such entry. -/
def HeldAfter (host : Host) (root : String) (entries : Entries) (found map : DependencyMap) (file : String) :
    Prop :=
  (∃ last set, LastOf host root file entries last ∧ map.find? file = some set
      ∧ ∀ other, other ∈ set ↔ Lists host root last other)
    ∨ (∀ entry ∈ entries, ¬ LeadsTo host root (.scalar entry.1) file) ∧ map.find? file = found.find? file

theorem HeldAfter.cons {name : Scalar} {names : List Document} {files : List String} {rest : Entries}
    {found map : DependencyMap} {key file : String} (stands : fileOf? host tree root (.scalar name) = some key)
    (members : filesOf host tree root names = .ok files)
    (held : HeldAfter host root rest (Rows.set found key (FileSet.ofList files)) map file) :
    HeldAfter host root ((name, .list names) :: rest) found map file := by
  rcases held with ⟨last, set, isLast, there, listed⟩ | ⟨none, same⟩
  · exact Or.inl ⟨last, set, .later isLast, there, listed⟩
  · rw [find?_set] at same
    split at same
    next hit =>
      have leads : LeadsTo host root (.scalar name) file := (leadsTo_iff_of_fileOf? stands).mpr hit
      exact Or.inl ⟨_, _, .here leads none, same, fun other => (lists_iff_of_filesOf members).symm⟩
    next different =>
      refine Or.inr ⟨fun entry member leads => ?_, same⟩
      rcases List.mem_cons.mp member with rfl | later
      · exact different ((leadsTo_iff_of_fileOf? stands).mp leads)
      · exact none entry later leads

theorem heldAfter_readEntries {entries : Entries} {found map : DependencyMap}
    (read : readEntries host tree root entries found = .ok map) (file : String) :
    HeldAfter host root entries found map file := by
  induction entries generalizing found with
  | nil =>
    cases read
    exact Or.inr ⟨by simp, rfl⟩
  | cons entry rest ih =>
    rcases entry with ⟨name, value⟩
    rw [readEntries] at read
    split at read
    next => cases read
    next key stands =>
      split at read
      next names =>
        obtain ⟨files, members, read⟩ := bind_eq_ok.mp read
        exact (ih read).cons stands members
      next => cases read

/-- How a map compares with the entries it was read from. -/
structure Recovered (host : Host) (root : String) (entries : Entries) (map : DependencyMap) : Prop where
  /-- Its keys are the files of the entries. -/
  keys : ∀ file, file ∈ map.keys ↔ ∃ entry ∈ entries, LeadsTo host root (.scalar entry.1) file
  /-- A file is related to what its last entry lists. -/
  last : ∀ file other, other ∈ map.get file ↔
    ∃ value, LastOf host root file entries value ∧ Lists host root value other
  /-- Nothing is added. -/
  related : ∀ file other, other ∈ map.get file → Relates host root entries file other
  /-- Nothing is lost exactly when no last entry lists less than those before it. -/
  complete : (∀ file other, Relates host root entries file other → other ∈ map.get file) ↔
    Unshadowed host root entries

theorem keys_of_heldAfter {entries : Entries} {map : DependencyMap} {file : String}
    (held : HeldAfter host root entries [] map file) :
    file ∈ map.keys ↔ ∃ entry ∈ entries, LeadsTo host root (.scalar entry.1) file := by
  rw [← find?_isSome]
  rcases held with ⟨last, set, isLast, there, _⟩ | ⟨none, same⟩
  · obtain ⟨entry, member, leads, _⟩ := isLast.entry
    simp only [there, Option.isSome_some, true_iff]
    exact ⟨entry, member, leads⟩
  · simp only [same, find?, Option.isSome_none, Bool.false_eq_true, false_iff]
    rintro ⟨entry, member, leads⟩
    exact none entry member leads

theorem last_of_heldAfter {entries : Entries} {map : DependencyMap} {file other : String}
    (held : HeldAfter host root entries [] map file) :
    other ∈ map.get file ↔ ∃ value, LastOf host root file entries value ∧ Lists host root value other := by
  rcases held with ⟨last, set, isLast, there, listed⟩ | ⟨none, same⟩
  · rw [DependencyMap.get, there, Option.getD_some, listed]
    constructor
    · exact fun lists => ⟨last, isLast, lists⟩
    · rintro ⟨value, again, lists⟩
      exact isLast.unique again ▸ lists
  · have nothing : map.get file = [] := by simp [DependencyMap.get, same, find?]
    rw [nothing]
    constructor
    · exact fun absent => absurd absent List.not_mem_nil
    · rintro ⟨value, isLast, _⟩
      obtain ⟨entry, member, leads, _⟩ := isLast.entry
      exact absurd leads (none entry member)

theorem recovered_of_readMap {side : String} {entries : Entries} {map : DependencyMap}
    (read : readMap host tree root side (.map entries) = .ok map) : Recovered host root entries map := by
  have held := heldAfter_readEntries (show readEntries host tree root entries [] = .ok map from read)
  have last : ∀ file other, other ∈ map.get file ↔
      ∃ value, LastOf host root file entries value ∧ Lists host root value other :=
    fun file other => last_of_heldAfter (held file)
  refine ⟨fun file => keys_of_heldAfter (held file), last, ?_, ?_, ?_⟩
  · intro file other member
    obtain ⟨value, isLast, lists⟩ := (last file other).mp member
    obtain ⟨entry, inside, leads, rfl⟩ := isLast.entry
    exact ⟨entry, inside, leads, lists⟩
  · intro complete file value isLast other related
    obtain ⟨again, isLast', lists⟩ := (last file other).mp (complete file other related)
    exact isLast.unique isLast' ▸ lists
  · intro unshadowed file other related
    have named : ∃ entry ∈ entries, LeadsTo host root (.scalar entry.1) file := by
      obtain ⟨entry, member, leads, _⟩ := related
      exact ⟨entry, member, leads⟩
    obtain ⟨value, isLast⟩ := LastOf.exists named
    exact (last file other).mpr ⟨value, isLast, unshadowed file value isLast other related⟩

end Relations

/-- The relations of a graph that comes back are those of the two maps of the text. The files of the entries are
its keys and each of its relations is listed in an entry. Of several entries for one file the last counts, so all
that is listed comes back if, and only if, the last entry of a file lists what the entries before it do. -/
theorem restore_keeps_relations (host : Host) (world after : World) (text root : Document) (graph : Graph)
    (reloaded : (restore host text root).outcome world = (.ok (some graph), after)) :
    ∃ content base fields upstream downstream,
      text = .text content ∧ root = .text base ∧ Json.parse content = .ok (.map fields)
        ∧ Entries.find? fields (.text "upstream") = some (.map upstream)
        ∧ Entries.find? fields (.text "downstream") = some (.map downstream)
        ∧ Recovered host (host.canonical base) upstream graph.upstream
        ∧ Recovered host (host.canonical base) downstream graph.downstream := by
  obtain ⟨accepted, _⟩ := readUnder_of_restore reloaded
  obtain ⟨content, base, document, rfl, rfl, _, _, parsed, found⟩ := readUnder_eq_ok.mp accepted
  obtain ⟨fields, rfl, _, up, down, _⟩ := read_eq_ok.mp found
  obtain ⟨_, upstream, upShape, _⟩ := readMap_spec up
  obtain ⟨_, downstream, downShape, _⟩ := readMap_spec down
  rw [upShape] at up
  rw [downShape] at down
  exact ⟨content, base, fields, upstream, downstream, rfl, rfl, parsed, find?_of_get_map upShape,
    find?_of_get_map downShape, recovered_of_readMap up, recovered_of_readMap down⟩

section Samples

/-- A relation of the sample graph and the detour by which its document lists it. -/
theorem restore_keeps_relations_sample :
    (restore sampleHost (.text (Json.write .plain sampleDocument)) (.text ".")).outcome sampleWorld =
        (.ok (some sampleGraph), sampleWorld)
      ∧ ∃ upstream, Recovered sampleHost "/w" upstream sampleGraph.upstream
        ∧ Relates sampleHost "/w" upstream "/w/a" "/w/b" := by
  obtain ⟨_, base, _, upstream, _, _, same, _, _, _, recovered, _⟩ :=
    restore_keeps_relations _ _ _ _ _ _ restore_sample
  cases same
  have root : sampleHost.canonical "." = "/w" := by decide +kernel
  rw [root] at recovered
  exact ⟨restore_sample, upstream, recovered, recovered.related "/w/a" "/w/b" (by decide)⟩

/-- Both maps name each file twice, and its second entry is empty. -/
def aliasFields : List (String × List (String × List String)) :=
  [("upstream", [("a", ["b"]), ("./a", []), ("b", [])]), ("downstream", [("b", ["a"]), ("./b", []), ("a", [])])]

def aliasDocument : Document :=
  .object (("formatVersion", .nat 1) :: aliasFields.map fun field =>
    (field.1, .object (field.2.map fun row => (row.1, .texts row.2))))

def relationless : Graph := ⟨[("/w/a", []), ("/w/b", [])], [("/w/b", []), ("/w/a", [])]⟩

/-- An entry that says that one file follows another is listed, and the graph that comes back has no relation. -/
theorem restore_forgets_relation :
    ∃ fields upstream,
      Json.parse (Json.write .plain aliasDocument) = .ok (.map fields)
        ∧ Entries.find? fields (.text "upstream") = some (.map upstream)
        ∧ Relates sampleHost (sampleHost.canonical ".") upstream "/w/a" "/w/b"
        ∧ (restore sampleHost (.text (Json.write .plain aliasDocument)) (.text ".")).outcome sampleWorld =
          (.ok (some relationless), sampleWorld)
        ∧ "/w/b" ∉ relationless.upstream.get "/w/a" := by
  have parsed : Json.parse (Json.write .plain aliasDocument) = .ok aliasDocument :=
    Json.parse_write (plain_versioned (by decide) (by decide))
  have directory : sampleTree.isDirectory (Path.absolute sampleHost.cwd ".") = true := by decide +kernel
  have root : sampleHost.canonical "." = "/w" := by decide +kernel
  have found : (read sampleHost sampleTree "/w" aliasDocument).toOption = some relationless := by decide +kernel
  have accepted : readUnder sampleHost sampleTree (.text (Json.write .plain aliasDocument)) (.text ".") =
      .ok (.ok relationless) :=
    readUnder_eq_ok.mpr ⟨_, ".", aliasDocument, rfl, rfl, by decide, directory, parsed,
      root ▸ eq_ok_of_toOption found⟩
  have follows : Relates sampleHost (sampleHost.canonical ".")
      [(.text "a", .texts ["b"]), (.text "./a", .texts []), (.text "b", .texts [])] "/w/a" "/w/b" := by
    rw [root]
    refine ⟨(.text "a", .texts ["b"]), List.mem_cons_self, ⟨"a", rfl, by decide, by decide, by decide +kernel⟩, ?_⟩
    exact ⟨[.text "b"], rfl, .text "b", List.mem_cons_self, "b", rfl, by decide, by decide, by decide +kernel⟩
  refine ⟨_, _, parsed, rfl, follows, ?_, by decide⟩
  rw [restore_outcome, show sampleWorld.tree = sampleTree from rfl, accepted]

end Samples

end DeclGraph.Saved
