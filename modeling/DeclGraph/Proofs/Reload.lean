import DeclGraph.Proofs.Coherence
import DeclGraph.Proofs.JsonText
import DeclGraph.Proofs.Outcomes
import DeclGraph.Storage.Saved

/-!
Reloading a saved graph fails closed. Whatever the text is, a graph comes back only under a root that is
a directory and from a document of the right version, and every file in it is a file of the tree below
the root under its canonical path. The two maps keep in step.
-/

namespace DeclGraph.Saved

open DependencyMap DeclGraph.Graph

/-- A number that is worth one. A truth value is not a number here. -/
def IsOne : Document → Prop
  | .scalar (.int value) => value = 1
  | .scalar (.real value) => value.toInt? = some 1
  | _ => False

theorem isVersion_iff (version : Document) : isVersion version = true ↔ IsOne version := by
  cases version with
  | scalar value =>
    cases value with
    | real value =>
      cases whole : value.toInt? with
      | none => cases value <;> simp [isVersion, Document.same, Scalar.key, IsOne, whole]
      | some integer =>
        cases value <;> simp_all [isVersion, Document.same, Scalar.key, IsOne, formatVersion,
          Binary64.toInt?]
    | moment value => cases instant : value.instant? <;>
        simp [isVersion, Document.same, Scalar.key, IsOne, instant]
    | _ => simp [isVersion, Document.same, Scalar.key, IsOne, formatVersion]
  | _ => simp [isVersion, Document.same, IsOne]

section Reading

variable {host : Host} {tree : FileTree} {root : String}

/-- A file that a saved name can stand for: a file of the tree below the root, by its canonical path. -/
structure Admitted (host : Host) (tree : FileTree) (root file : String) : Prop where
  fixed : host.locate file = .ok file
  below : Path.isBelow root file = true
  exists_ : tree.isFile file = true

theorem canonical_ne_empty (host : Host) (path : String) : host.canonical path ≠ "" := by
  rcases host.isCanonical_canonical path with ⟨⟨doubled, names⟩, _, text⟩
  rw [← text]
  cases doubled <;> simp [Path.Location.text]

theorem locate_canonical (host : Host) (path : String) :
    host.locate (host.canonical path) = .ok (host.canonical path) :=
  Host.locate_eq_ok.mpr ⟨canonical_ne_empty host path, host.canonical_canonical host rfl path⟩

/-- What a saved name stands for: only a relative text stands for a file, the one it leads to. -/
theorem fileOf?_eq_some {name : Document} {file : String} :
    fileOf? host tree root name = some file ↔
      ∃ text, name = .text text ∧ text ≠ "" ∧ Path.isAbsolute text = false
        ∧ host.canonical (Path.joinAll root (Path.segments text)) = file
        ∧ Path.isBelow root file = true ∧ tree.isFile file = true := by
  unfold fileOf?
  split
  next text =>
    by_cases refused : text = "" ∨ Path.isAbsolute text = true
    · rw [if_pos refused]
      constructor
      · exact fun none => nomatch none
      · rintro ⟨other, same, present, relative, _⟩
        cases same
        rcases refused with empty | rooted
        · exact absurd empty present
        · exact absurd rooted (by simp [relative])
    · simp only [if_neg refused]
      have accepted := not_or.mp refused
      constructor
      · intro found
        split at found
        next admitted =>
          cases found
          exact ⟨text, rfl, accepted.1, Bool.eq_false_iff.mpr accepted.2, rfl, admitted⟩
        next => cases found
      · rintro ⟨other, same, _, _, rfl, admitted⟩
        cases same
        rw [if_pos admitted]
  next other =>
    constructor
    · exact fun none => nomatch none
    · rintro ⟨text, same, _⟩
      exact absurd same (other text)

theorem admitted_of_fileOf? {name : Document} {file : String}
    (found : fileOf? host tree root name = some file) : Admitted host tree root file := by
  rcases fileOf?_eq_some.mp found with ⟨text, _, _, _, rfl, below, isFile⟩
  exact ⟨locate_canonical host _, below, isFile⟩

theorem filesOf_eq_ok {names : List Document} {files : List String} :
    filesOf host tree root names = .ok files ↔
      List.Forall₂ (fun name file => fileOf? host tree root name = some file) names files := by
  induction names generalizing files with
  | nil => simp [filesOf, eq_comm]
  | cons name rest ih =>
    rw [filesOf]
    split
    next missing => simp [List.forall₂_cons_left_iff, missing]
    next file found =>
      rw [bind_eq_ok, List.forall₂_cons_left_iff]
      simp only [ih, found, Option.some.injEq]
      constructor
      · rintro ⟨others, tail, same⟩
        cases same
        exact ⟨file, others, rfl, tail, rfl⟩
      · rintro ⟨_, others, rfl, tail, rfl⟩
        exact ⟨others, tail, rfl⟩

def HoldsName (entries : Entries) (name : Document) : Prop :=
  ∃ entry ∈ entries, name = .scalar entry.1 ∨ ∃ names, entry.2 = .list names ∧ name ∈ names

def NamedBy (host : Host) (tree : FileTree) (root : String) (entries : Entries) (map : DependencyMap) :
    Prop :=
  ∀ row ∈ map, ∀ file, file = row.1 ∨ file ∈ row.2 →
    ∃ name, HoldsName entries name ∧ fileOf? host tree root name = some file

theorem mem_set_cases {rows : DependencyMap} {file : String} {set : FileSet} {row : String × FileSet}
    (member : row ∈ Rows.set rows file set) : row = (file, set) ∨ row ∈ rows := by
  induction rows with
  | nil => exact Or.inl (List.mem_singleton.mp member)
  | cons first rest ih =>
    rcases first with ⟨key, old⟩
    rw [Rows.set] at member
    split at member
    next same =>
      rcases List.mem_cons.mp member with here | later
      · exact Or.inl (same ▸ here)
      · exact Or.inr (List.mem_cons_of_mem _ later)
    next =>
      rcases List.mem_cons.mp member with here | later
      · exact Or.inr (here ▸ List.mem_cons_self)
      · exact (ih later).imp id (List.mem_cons_of_mem _)

/-- Reading entries keeps a map well formed and adds nothing but files that they name. -/
theorem readEntries_spec {all entries : Entries} {found map : DependencyMap}
    (listed : ∀ entry ∈ entries, entry ∈ all) (formed : found.WellFormed)
    (named : NamedBy host tree root all found)
    (read : readEntries host tree root entries found = .ok map) :
    map.WellFormed ∧ NamedBy host tree root all map := by
  induction entries generalizing found with
  | nil =>
    cases read
    exact ⟨formed, named⟩
  | cons entry rest ih =>
    rcases entry with ⟨name, value⟩
    rw [readEntries] at read
    split at read
    next => cases read
    next file key =>
      split at read
      next names =>
        obtain ⟨files, members, read⟩ := bind_eq_ok.mp read
        have inAll : (name, Document.list names) ∈ all := listed _ List.mem_cons_self
        apply ih (fun entry member => listed entry (List.mem_cons_of_mem _ member))
          (wellFormed_set formed file (FileSet.increasing_ofList files)) _ read
        intro row member other mentioned
        -- A name that stands for a file met before takes the place of its row.
        rcases mem_set_cases member with rfl | old
        · rcases mentioned with rfl | inSet
          · exact ⟨.scalar name, ⟨_, inAll, Or.inl rfl⟩, key⟩
          · have inFiles := (FileSet.mem_ofList files other).mp inSet
            obtain ⟨given, inNames, stands⟩ := exists_of_mem_right (filesOf_eq_ok.mp members) inFiles
            exact ⟨given, ⟨_, inAll, Or.inr ⟨names, rfl, inNames⟩⟩, stands⟩
        · exact named row old other mentioned
      next => cases read

theorem readMap_spec {name : String} {value : Document} {map : DependencyMap}
    (read : readMap host tree root name value = .ok map) :
    map.WellFormed ∧ ∃ entries, value = .map entries ∧ NamedBy host tree root entries map := by
  unfold readMap at read
  split at read
  next entries =>
    have named : NamedBy host tree root entries [] := by simp [NamedBy]
    have spec := readEntries_spec (fun _ member => member) wellFormed_nil named read
    exact ⟨spec.1, entries, rfl, spec.2⟩
  next => cases read

theorem read_eq_ok {document : Document} {graph : Graph} :
    read host tree root document = .ok graph ↔
      ∃ entries, document = .map entries ∧ isVersion (Entries.get entries "formatVersion") = true
        ∧ readMap host tree root "upstream" (Entries.get entries "upstream") = .ok graph.upstream
        ∧ readMap host tree root "downstream" (Entries.get entries "downstream") = .ok graph.downstream
        ∧ graph.isValid = true := by
  unfold read
  split
  next entries =>
    simp only [Document.map.injEq, exists_eq_left']
    by_cases version : isVersion (Entries.get entries "formatVersion") = true
    · simp only [version, Bool.not_true, Bool.false_eq_true, ↓reduceIte, true_and]
      simp only [bind_eq_ok]
      constructor
      · rintro ⟨upstream, up, downstream, down, checked⟩
        split at checked
        next valid =>
          cases checked
          exact ⟨up, down, valid⟩
        next => cases checked
      · rintro ⟨up, down, valid⟩
        refine ⟨graph.upstream, up, graph.downstream, down, ?_⟩
        rw [if_pos valid]
        rfl
    · constructor
      · intro accepted
        simp [version] at accepted
        cases accepted
      · rintro ⟨right, _⟩
        exact absurd right version
  next other =>
    constructor
    · exact fun accepted => nomatch accepted
    · rintro ⟨entries, same, _⟩
      exact absurd same (other entries)

end Reading

theorem readUnder_texts (host : Host) (tree : FileTree) (content base : String) :
    readUnder host tree (.text content) (.text base) =
      if base ≠ "" ∧ tree.isDirectory (Path.absolute host.cwd base) = true then
        match Json.parse content with
        | .ok document => .ok (read host tree (host.canonical base) document)
        | .error .malformed => .ok (.error .notJson)
        | .error (.numeral defect) => .error (.numeral defect)
      else .ok (.error (.rootMissing (.text base))) := by
  by_cases present : base = ""
  · simp [readUnder, rootIsDirectory, present, Document.isNull, bind, Except.bind, pure, Except.pure]
  · by_cases directory : tree.isDirectory (Path.absolute host.cwd base) = true
    · simp [readUnder, rootIsDirectory, present, directory, Document.isNull, Host.locateValue,
        Host.locate, bind, Except.bind]
      rfl
    · simp [readUnder, rootIsDirectory, present, directory, Document.isNull, bind, Except.bind, pure,
        Except.pure]

theorem text_of_rootIsDirectory {host : Host} {tree : FileTree} {root : Document}
    (directory : rootIsDirectory host tree root = .ok true) : ∃ base, root = .text base := by
  unfold rootIsDirectory at directory
  split at directory
  next base => exact ⟨base, rfl⟩
  next => split at directory <;> cases directory
  next => cases directory
  next => cases directory

theorem texts_of_readUnder {host : Host} {tree : FileTree} {text root : Document} {graph : Graph}
    (accepted : readUnder host tree text root = .ok (.ok graph)) :
    ∃ content base, text = .text content ∧ root = .text base := by
  by_cases noText : text.isNull = true
  · simp [readUnder, noText, bind, Except.bind] at accepted
  · by_cases noRoot : root.isNull = true
    · simp [readUnder, noText, noRoot, bind, Except.bind] at accepted
    · simp only [readUnder, noText, noRoot, Bool.false_eq_true, ↓reduceIte] at accepted
      -- The root is looked at before the text.
      obtain ⟨isDirectory, asked, entered⟩ := bind_eq_ok.mp accepted
      cases isDirectory with
      | false => cases entered
      | true =>
        obtain ⟨base, rooted⟩ := text_of_rootIsDirectory asked
        obtain ⟨place, _, found⟩ := bind_eq_ok.mp entered
        cases text with
        | scalar value =>
          cases value with
          | text content => exact ⟨content, base, rfl, rooted⟩
          | _ => cases found
        | _ => cases found

theorem readUnder_eq_ok {host : Host} {tree : FileTree} {text root : Document} {graph : Graph} :
    readUnder host tree text root = .ok (.ok graph) ↔
      ∃ content base document, text = .text content ∧ root = .text base ∧ base ≠ ""
        ∧ tree.isDirectory (Path.absolute host.cwd base) = true ∧ Json.parse content = .ok document
        ∧ read host tree (host.canonical base) document = .ok graph := by
  constructor
  · intro accepted
    obtain ⟨content, base, rfl, rfl⟩ := texts_of_readUnder accepted
    rw [readUnder_texts] at accepted
    split at accepted
    next rooted =>
      split at accepted
      next document parsed =>
        exact ⟨content, base, document, rfl, rfl, rooted.1, rooted.2, parsed, Except.ok.inj accepted⟩
      next => cases accepted
      next => cases accepted
    next => cases accepted
  · rintro ⟨content, base, document, rfl, rfl, present, directory, parsed, found⟩
    rw [readUnder_texts, if_pos ⟨present, directory⟩, parsed]
    exact congrArg Except.ok found

/-- A rejected text leaves a line in the log and nothing else. -/
theorem restore_outcome (host : Host) (text root : Document) (world : World) :
    (restore host text root).outcome world =
      match readUnder host world.tree text root with
      | .ok (.ok graph) => (.ok (some graph), world)
      | .ok (.error rejection) => (.ok none, { world with journal := world.journal
          ++ [{ channel := Channel.storage, level := .info, message := rejection.message }] })
      | .error fault => (.error fault, world) := by
  unfold restore
  rw [Run.outcome_bind, Run.outcome_tree]
  simp only [Run.outcome_bind, Run.outcome_ofExcept]
  rcases readUnder host world.tree text root with fault | (rejection | graph)
  · rfl
  · rfl
  · rfl

/-- A name leads to a file under a root: it is a relative text, and its segments lead there. -/
def LeadsTo (host : Host) (root : String) (name : Document) (file : String) : Prop :=
  ∃ text, name = .text text ∧ text ≠ "" ∧ Path.isAbsolute text = false
    ∧ host.canonical (Path.joinAll root (Path.segments text)) = file

theorem find?_of_get_map {entries rows : Entries} {name : String}
    (given : Entries.get entries name = .map rows) :
    Entries.find? entries (.text name) = some (.map rows) := by
  rw [Entries.get] at given
  cases found : Entries.find? entries (.text name) with
  | none => simp [found] at given
  | some value => simpa [found] using given

theorem find?_of_isVersion {entries : Entries}
    (right : isVersion (Entries.get entries "formatVersion") = true) :
    ∃ version, Entries.find? entries (.text "formatVersion") = some version ∧ IsOne version := by
  rw [isVersion_iff, Entries.get] at right
  cases found : Entries.find? entries (.text "formatVersion") with
  | none => simp [found, IsOne] at right
  | some version => exact ⟨version, rfl, by simpa [found] using right⟩

theorem source_of_readMap {host : Host} {tree : FileTree} {root side : String} {entries : Entries}
    {map : DependencyMap} {row : String × FileSet} {file : String}
    (given : readMap host tree root side (Entries.get entries side) = .ok map) (member : row ∈ map)
    (mentioned : file = row.1 ∨ file ∈ row.2) :
    Admitted host tree root file ∧ ∃ rows name, Entries.find? entries (.text side) = some (.map rows)
      ∧ HoldsName rows name ∧ LeadsTo host root name file := by
  obtain ⟨_, rows, shape, named⟩ := readMap_spec given
  obtain ⟨name, held, stands⟩ := named row member file mentioned
  refine ⟨admitted_of_fileOf? stands, rows, name, find?_of_get_map shape, held, ?_⟩
  obtain ⟨text, same, present, relative, leads, _⟩ := fileOf?_eq_some.mp stands
  exact ⟨text, same, present, relative, leads⟩

theorem isWithin_of_admitted {host : Host} {tree : FileTree} {base file : String} (present : base ≠ "")
    (admitted : Admitted host tree (host.canonical base) file) :
    host.isWithin (.text file) (.text base) = .ok true := by
  have located : host.locateValue (.text base) = .ok (host.canonical base) :=
    Host.locate_eq_ok.mpr ⟨present, rfl⟩
  have fixed : host.locateValue (.text file) = .ok file := admitted.fixed
  rw [Host.isWithin, fixed, located]
  exact congrArg Except.ok admitted.below

theorem readUnder_of_restore {host : Host} {world after : World} {text root : Document} {graph : Graph}
    (reloaded : (restore host text root).outcome world = (.ok (some graph), after)) :
    readUnder host world.tree text root = .ok (.ok graph) ∧ after = world := by
  rw [restore_outcome] at reloaded
  split at reloaded
  next same =>
    cases reloaded
    exact ⟨same, rfl⟩
  next => cases reloaded
  next => cases reloaded

/-- What was read and found valid keeps in step. -/
theorem coherent_of_read {host : Host} {tree : FileTree} {root : String} {document : Document} {graph : Graph}
    (found : read host tree root document = .ok graph) : graph.Coherent := by
  obtain ⟨entries, _, _, upstream, downstream, valid⟩ := read_eq_ok.mp found
  exact (violations_eq_nil_iff (readMap_spec upstream).1 (readMap_spec downstream).1).mp
    ((isValid_iff graph).mp valid)

theorem source_of_read {host : Host} {tree : FileTree} {root : String} {entries : Entries} {graph : Graph}
    (found : read host tree root (.map entries) = .ok graph) {file : String} (mentioned : graph.Mentions file) :
    Admitted host tree root file ∧ ∃ side rows name, (side = "upstream" ∨ side = "downstream")
      ∧ Entries.find? entries (.text side) = some (.map rows) ∧ HoldsName rows name
      ∧ LeadsTo host root name file := by
  obtain ⟨_, same, _, upstream, downstream, _⟩ := read_eq_ok.mp found
  cases same
  rcases mentioned with ⟨row, member, stated⟩ | ⟨row, member, stated⟩
  · obtain ⟨admitted, rows, name, source⟩ := source_of_readMap upstream member stated
    exact ⟨admitted, "upstream", rows, name, Or.inl rfl, source⟩
  · obtain ⟨admitted, rows, name, source⟩ := source_of_readMap downstream member stated
    exact ⟨admitted, "downstream", rows, name, Or.inr rfl, source⟩

/-- Reloading fails closed. If a text gives a graph under a root, the root is a directory, the text is an
object of the right version, and each file of the graph is a file of the tree below the root, under its
canonical path, that a relative name in one of the two maps of the object leads to. Nothing is wrong with
the graph, and the surroundings are as before. -/
theorem restore_fails_closed (host : Host) (world after : World) (text root : Document) (graph : Graph)
    (reloaded : (restore host text root).outcome world = (.ok (some graph), after)) :
    ∃ content base entries version,
      text = .text content ∧ root = .text base
        ∧ world.tree.isDirectory (Path.absolute host.cwd base) = true
        ∧ Json.parse content = .ok (.map entries)
        ∧ Entries.find? entries (.text "formatVersion") = some version ∧ IsOne version
        ∧ (∀ file, graph.Mentions file →
          host.locate file = .ok file ∧ world.tree.isFile file = true
            ∧ host.isWithin (.text file) root = .ok true
            ∧ ∃ side rows name, (side = "upstream" ∨ side = "downstream")
              ∧ Entries.find? entries (.text side) = some (.map rows) ∧ HoldsName rows name
              ∧ LeadsTo host (host.canonical base) name file)
        ∧ graph.Coherent ∧ graph.violations = [] ∧ after = world := by
  obtain ⟨accepted, unchanged⟩ := readUnder_of_restore reloaded
  obtain ⟨content, base, document, rfl, rfl, present, directory, parsed, found⟩ := readUnder_eq_ok.mp accepted
  have coherent := coherent_of_read found
  obtain ⟨entries, rfl, right, _⟩ := read_eq_ok.mp found
  obtain ⟨version, given, isOne⟩ := find?_of_isVersion right
  refine ⟨content, base, entries, version, rfl, rfl, directory, parsed, given, isOne, ?_, coherent,
    coherent.violations_eq_nil, unchanged⟩
  intro file mentioned
  obtain ⟨admitted, source⟩ := source_of_read found mentioned
  exact ⟨admitted.fixed, admitted.exists_, isWithin_of_admitted present admitted, source⟩

def sampleHost : Host := ⟨"/w", false, 1, "", ""⟩

def sampleTree : FileTree :=
  ⟨[(["w"], .directory), (["w", "a"], .file ByteArray.empty), (["w", "b"], .file ByteArray.empty)]⟩

def sampleWorld : World := ⟨sampleTree, [], [], [], []⟩

def sampleFields : List (String × List (String × List String)) :=
  [("upstream", [("x/..//a", ["./b"]), ("b", [])]), ("downstream", [("a", []), ("./b", ["a", "../w/a"])])]

def sampleDocument : Document :=
  .object (("formatVersion", .nat 1) :: sampleFields.map fun field =>
    (field.1, .object (field.2.map fun row => (row.1, .texts row.2))))

def sampleGraph : Graph := ⟨[("/w/a", ["/w/b"]), ("/w/b", [])], [("/w/a", []), ("/w/b", ["/w/a"])]⟩

theorem plain_versioned {fields : List (String × List (String × List String))}
    (apart : ("formatVersion" :: fields.map (·.1)).Nodup) (distinct : ∀ field ∈ fields, (field.2.map (·.1)).Nodup) :
    Json.Plain (.object (("formatVersion", .nat 1) :: fields.map fun field =>
      (field.1, .object (field.2.map fun row => (row.1, .texts row.2))))) := by
  refine .object (by simpa [Function.comp_def] using apart) fun field member => ?_
  rcases List.mem_cons.mp member with rfl | later
  · exact .digit (by decide)
  · obtain ⟨given, listed, rfl⟩ := List.mem_map.mp later
    refine .object (by simpa [Function.comp_def] using distinct given listed) fun row inside => ?_
    obtain ⟨entry, _, rfl⟩ := List.mem_map.mp inside
    exact Json.plain_texts entry.2

theorem plain_sampleDocument : Json.Plain sampleDocument := plain_versioned (by decide) (by decide)

theorem restore_sample :
    (restore sampleHost (.text (Json.write .plain sampleDocument)) (.text ".")).outcome sampleWorld =
      (.ok (some sampleGraph), sampleWorld) := by
  have directory : sampleTree.isDirectory (Path.absolute sampleHost.cwd ".") = true := by decide +kernel
  have root : sampleHost.canonical "." = "/w" := by decide +kernel
  have found : (read sampleHost sampleTree "/w" sampleDocument).toOption = some sampleGraph := by
    decide +kernel
  have accepted : readUnder sampleHost sampleTree (.text (Json.write .plain sampleDocument)) (.text ".") =
      .ok (.ok sampleGraph) :=
    readUnder_eq_ok.mpr ⟨_, ".", sampleDocument, rfl, rfl, by decide, directory,
      Json.parse_write plain_sampleDocument, root ▸ eq_ok_of_toOption found⟩
  rw [restore_outcome, show sampleWorld.tree = sampleTree from rfl, accepted]

theorem restore_fails_closed_sample :
    (restore sampleHost (.text (Json.write .plain sampleDocument)) (.text ".")).outcome sampleWorld =
        (.ok (some sampleGraph), sampleWorld)
      ∧ ∀ file, sampleGraph.Mentions file → sampleHost.locate file = .ok file
        ∧ sampleTree.isFile file = true ∧ sampleHost.isWithin (.text file) (.text ".") = .ok true := by
  refine ⟨restore_sample, fun file mentioned => ?_⟩
  obtain ⟨_, _, _, _, _, _, _, _, _, _, files, _⟩ := restore_fails_closed _ _ _ _ _ _ restore_sample
  obtain ⟨fixed, isFile, within, _⟩ := files file mentioned
  exact ⟨fixed, isFile, within⟩

end DeclGraph.Saved
