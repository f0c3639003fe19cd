import DeclGraph.Proofs.CachedGraphs
import DeclGraph.Proofs.SavedTexts

/-!
What a damaged artifact does to a build. Its bytes may be anything: as long as they are text without numerals of
thousands of digits, loading gives a valid graph or none, and then a graph is built and put in its place.
-/

namespace DeclGraph.Json

/-- A failure that is about a numeral is about one with more digits than can be read. -/
def IsOverlong (failure : Failure) : Prop :=
  failure = .malformed ∨ ∃ count, Numeral.digitLimit < count ∧ failure = .numeral (.tooManyDigits count)

variable {cs : List Char} {failure : Failure}

theorem isOverlong_string (failed : string cs = .error failure) : IsOverlong failure := by
  rw [string] at failed
  split at failed
  · cases failed
  · cases failed
    exact Or.inl rfl

theorem isOverlong_unsigned {negative : Bool} (failed : unsigned negative cs = .error failure) :
    IsOverlong failure := by
  rw [unsigned] at failed
  split at failed
  · cases failed
    exact Or.inl rfl
  · next digits after _ =>
    simp only at failed
    split at failed
    · split at failed
      · next long =>
        cases failed
        exact Or.inr ⟨_, long, rfl⟩
      · cases failed
    · cases failed

theorem isOverlong_number (failed : number cs = .error failure) : IsOverlong failure := by
  unfold number at failed
  split at failed
  · cases failed
  · cases failed
  · cases failed
  · exact isOverlong_unsigned failed
  · exact isOverlong_unsigned failed

structure ReadsOverlong (fuel : Nat) : Prop where
  value : ∀ cs failure, value fuel cs = .error failure → IsOverlong failure
  items : ∀ cs failure, items fuel cs = .error failure → IsOverlong failure
  entries : ∀ cs failure, entries fuel cs = .error failure → IsOverlong failure

namespace ReadsOverlong

variable {fuel : Nat} (reads : ReadsOverlong fuel)
include reads

theorem value_succ (failed : Json.value (fuel + 1) cs = .error failure) : IsOverlong failure := by
  unfold Json.value at failed
  split at failed
  · obtain failed | ⟨_, _, failed⟩ := bind_eq_error.mp failed
    · exact isOverlong_string failed
    · cases failed
  · split at failed
    · cases failed
    · obtain failed | ⟨_, _, failed⟩ := bind_eq_error.mp failed
      · exact reads.items _ _ failed
      · cases failed
  · split at failed
    · cases failed
    · obtain failed | ⟨_, _, failed⟩ := bind_eq_error.mp failed
      · exact reads.entries _ _ failed
      · cases failed
  · cases failed
  · cases failed
  · cases failed
  · exact isOverlong_number failed

theorem items_succ (failed : Json.items (fuel + 1) cs = .error failure) : IsOverlong failure := by
  unfold Json.items at failed
  obtain failed | ⟨⟨item, rest⟩, _, failed⟩ := bind_eq_error.mp failed
  · exact reads.value _ _ failed
  · simp only at failed
    split at failed
    · cases failed
    · obtain failed | ⟨_, _, failed⟩ := bind_eq_error.mp failed
      · exact reads.items _ _ failed
      · cases failed
    · cases failed
      exact Or.inl rfl

theorem entries_succ (failed : Json.entries (fuel + 1) cs = .error failure) : IsOverlong failure := by
  unfold Json.entries at failed
  split at failed
  · obtain failed | ⟨⟨name, afterName⟩, _, failed⟩ := bind_eq_error.mp failed
    · exact isOverlong_string failed
    · simp only at failed
      split at failed
      · obtain failed | ⟨⟨found, rest⟩, _, failed⟩ := bind_eq_error.mp failed
        · exact reads.value _ _ failed
        · simp only at failed
          split at failed
          · cases failed
          · obtain failed | ⟨_, _, failed⟩ := bind_eq_error.mp failed
            · exact reads.entries _ _ failed
            · cases failed
          · cases failed
            exact Or.inl rfl
      · cases failed
        exact Or.inl rfl
  · cases failed
    exact Or.inl rfl

end ReadsOverlong

theorem readsOverlong (fuel : Nat) : ReadsOverlong fuel := by
  induction fuel with
  | zero =>
    refine ⟨fun cs failure failed => ?_, fun cs failure failed => ?_, fun cs failure failed => ?_⟩
    -- Without fuel all three fail as malformed.
    all_goals
      cases failed
      exact Or.inl rfl
  | succ fuel ih => exact ⟨fun _ _ => ih.value_succ, fun _ _ => ih.items_succ, fun _ _ => ih.entries_succ⟩

theorem isOverlong_parse {text : String} (failed : parse text = .error failure) : IsOverlong failure := by
  unfold parse at failed
  simp only at failed
  split at failed
  · cases failed
    exact Or.inl rfl
  · obtain failed | ⟨⟨document, rest⟩, _, failed⟩ := bind_eq_error.mp failed
    · exact (readsOverlong _).value _ _ failed
    · simp only at failed
      split at failed
      · cases failed
      · cases failed
        exact Or.inl rfl

end DeclGraph.Json

namespace DeclGraph.GraphStore

open FileTree

/-- Loading fails on bytes that spell no text, and on a text with a numeral of more digits than can be read. -/
inductive Unreadable (bytes : ByteArray) : Fault → Prop
  | undecodable {flaw : Text.Flaw} : Text.ofBytes bytes = .error flaw → Unreadable bytes (.undecodable flaw)
  | overlong {text : String} {count : Nat} : Text.ofBytes bytes = .ok text →
    Json.parse text = .error (.numeral (.tooManyDigits count)) → Numeral.digitLimit < count →
    Unreadable bytes (.numeral (.tooManyDigits count))

/-- What loading from bytes comes to: a failure for bytes that cannot be read, and otherwise a valid graph or none.
Only the log changes. -/
inductive Loads (bytes : ByteArray) (world : World) : Except Fault (Option Graph) × World → Prop
  | refused {fault : Fault} : Unreadable bytes fault → Loads bytes world (.error fault, world)
  | given {found : Option Graph} {journal : List LogRecord} : (∀ fault, ¬ Unreadable bytes fault) →
    (∀ graph, found = some graph → graph.violations = []) → Loads bytes world (.ok found, { world with journal })

variable {host : Host} {root : String} {trail : Path.Trail} {bytes : ByteArray} {world : World}

theorem load_file (host : Host) (root : String) (held : world.tree.look trail.text = .ok (.file bytes)) :
    ∃ journal, ((GraphStore.file root trail).load host).outcome world =
      match Text.ofBytes bytes with
      | .error flaw => (.error (.undecodable flaw), world)
      | .ok text =>
        match Saved.readUnder host world.tree (.text text) (.text root) with
        | .ok (.ok graph) => (.ok (some graph), world)
        | .ok (.error _) => (.ok none, { world with journal })
        | .error fault => (.error fault, world) := by
  unfold GraphStore.load
  simp only [Run.outcome_bind, Run.outcome_tree, Run.outcome_onTree, probe_eq_some.mpr held]
  cases Text.ofBytes bytes with
  | error flaw => exact ⟨world.journal, rfl⟩
  | ok text =>
    simp only [Run.outcome_bind, Saved.restore_outcome]
    rcases Saved.readUnder host world.tree (.text text) (.text root) with fault | rejection | graph
    · exact ⟨world.journal, rfl⟩
    · exact ⟨_, rfl⟩
    · exact ⟨world.journal, rfl⟩

theorem load_held (present : root ≠ "") (directory : world.tree.isDirectory (Path.absolute host.cwd root) = true)
    (held : world.tree.look trail.text = .ok (.file bytes)) :
    Loads bytes world (((GraphStore.file root trail).load host).outcome world) := by
  obtain ⟨journal, ran⟩ := load_file host root held
  rw [ran]
  cases decoded : Text.ofBytes bytes with
  | error flaw => exact .refused (.undecodable decoded)
  | ok text =>
    have readable (other : ∀ defect, Json.parse text ≠ .error (.numeral defect)) (fault : Fault) :
        ¬ Unreadable bytes fault := by
      rintro (flawed | ⟨also, refused, _⟩)
      · cases decoded.symm.trans flawed
      · cases decoded.symm.trans also
        exact other _ refused
    simp only [Saved.readUnder_texts]
    rw [if_pos ⟨present, directory⟩]
    cases parsed : Json.parse text with
    | ok document =>
      have others := readable (by simp [parsed])
      simp only
      cases found : Saved.read host world.tree (host.canonical root) document with
      | ok graph =>
        apply Loads.given others
        rintro _ ⟨⟩
        exact (Saved.coherent_of_read found).violations_eq_nil
      | error rejection => exact .given others nofun
    | error failure =>
      cases failure with
      | malformed => exact .given (readable (by simp [parsed])) nofun
      | numeral defect =>
        obtain impossible | ⟨count, long, same⟩ := Json.isOverlong_parse parsed
        · cases impossible
        · cases same
          exact .refused (.overlong decoded parsed long)

/-- The temporary file beside a trail can be named. -/
def HasRoom (tree : FileTree) (trail : Path.Trail) : Prop :=
  ∃ spot, tree.place (freshPath tree trail.parent.text) = .ok spot

theorem place_over_file (host : Host) (rooted : trail.root = "/" ∨ trail.root = "//")
    (held : world.tree.look trail.text = .ok (.file bytes)) (room : HasRoom world.tree trail) (text : String) :
    ∃ after, (place host trail text).outcome world =
      (match Text.toBytes text with
        | .ok _ => .ok ()
        | .error flaw => .error (.unencodable flaw), { world with tree := after }) := by
  obtain ⟨target, aimed, there⟩ := look_eq_ok.mp held
  have other : world.tree.entry? target ≠ some .directory := by simp [there]
  have ready : FileTree.makeDirectories host.cwd trail.root trail.parent.names world.tree = (.ok (), world.tree) := by
    apply makeDirectories_there
    rw [fullText_of_rooted _ rooted]
    exact isDirectory_parent rooted aimed other
  obtain ⟨spot, fits⟩ := room
  cases encoded : Text.toBytes text with
  | ok written =>
    obtain ⟨formed, _⟩ := Text.toBytes_eq_ok.mp encoded
    obtain ⟨after, ran, _⟩ := place_eq_ok host formed ready fits aimed other
    exact ⟨after, ran⟩
  | error flaw =>
    obtain ⟨after, ran, _⟩ := place_eq_error host encoded ready fits
    exact ⟨after, ran⟩

end DeclGraph.GraphStore

namespace DeclGraph.Service

open FileTree GraphStore

variable {host : Host} {service : Service} {root units : Document} {place : String} {bytes : ByteArray} {world : World}

/-- The units can be opened and analysed, whatever is in the log. -/
def Analysable (host : Host) (service : Service) (place : String) (units : Document) (world : World) : Prop :=
  ∀ journal, ∃ graph after, (service.analyzeUnder host place units).outcome { world with journal } = (.ok graph, after)

/-- What the units give has a text with bytes, whatever is in the log. -/
def GivesEncodable (host : Host) (service : Service) (place : String) (units : Document) (world : World) : Prop :=
  ∀ journal graph after, (service.analyzeUnder host place units).outcome { world with journal } = (.ok graph, after) →
    Saved.Encodable host place (.graph graph)

/-- A graph that is built is saved, in memory or over the file that is there, unless it is to be saved in a file and
its text has no bytes. -/
theorem rebuild_settles (quiet : service.builder.frontend.Quiet) (fixed : host.canonical place = place)
    {store : GraphStore} {graph : Graph} (stored : store = .memory place none
      ∨ store = .file place (artifact service.settings place)
        ∧ world.tree.look (artifact service.settings place).text = .ok (.file bytes)
        ∧ HasRoom world.tree (artifact service.settings place))
    (set : units.isSet = true) {analyzed : World}
    (analysis : (service.analyzeUnder host place units).outcome world = (.ok graph, analyzed)) :
    (∃ after, (service.rebuild host store place units).outcome world = (.ok graph, after))
      ∨ store ≠ .memory place none ∧ ¬ Saved.Encodable host place (.graph graph)
        ∧ ∃ flaw after, (service.rebuild host store place units).outcome world = (.error (.unencodable flaw), after) := by
  have rooted : host.locate place = .ok place := locateRoot_text fixed
  have built := analyzeUnder_eq_ok rooted analysis
  obtain ⟨text, wrote⟩ := Saved.write_below rooted fun file mentioned =>
    ⟨(built.there file mentioned).1, built.below file mentioned⟩
  have kept : analyzed.tree = world.tree := by
    have still := keeps_analyzeUnder quiet host place units world
    rwa [analysis] at still
  have gives {saved : GraphStore} {after : World} (saves : (store.save host (.graph graph)).outcome analyzed = (.ok saved, after)) :
      (service.rebuild host store place units).outcome world = (.ok graph, after) := by
    simp only [rebuild, set, Bool.not_true, Bool.false_eq_true, if_false, Run.outcome_bind, analysis, saves]
    rfl
  have refuses {fault : Fault} {after : World} (fails : (store.save host (.graph graph)).outcome analyzed = (.error fault, after)) :
      (service.rebuild host store place units).outcome world = (.error fault, after) := by
    simp only [rebuild, set, Bool.not_true, Bool.false_eq_true, if_false, Run.outcome_bind, analysis, fails]
  obtain rfl | ⟨rfl, held, room⟩ := stored
  · have saving : ((GraphStore.memory place none).save host (.graph graph)).outcome analyzed =
        (.ok (.memory place (some text)), analyzed) := by
      rw [save, Run.outcome_bind, Run.outcome_ofExcept, GraphStore.root, writeOperand_graph, wrote]
      rfl
    exact Or.inl ⟨analyzed, gives saving⟩
  · rw [← kept] at held room
    have written := (writeOperand_graph host graph place).trans wrote
    obtain ⟨after, ran⟩ := place_over_file host
      (rooted_artifact service.settings (Host.isCanonical_of_fixed fixed)) held room text
    cases encoded : Text.toBytes text with
    | ok bytes =>
      rw [encoded] at ran
      obtain ⟨journal, saving⟩ := save_of_place written ran
      exact Or.inl ⟨_, gives saving⟩
    | error flaw =>
      rw [encoded] at ran
      have bare : ¬ Saved.Encodable host place (.graph graph) := fun encodable => by
        cases (Text.toBytes_of_wellFormed (encodable text written)).symm.trans encoded
      exact Or.inr ⟨by simp, bare, flaw, _, refuses (save_of_refused written ran)⟩

theorem isNull_of_isSet {value : Document} (set : value.isSet = true) : value.isNull = false := by
  unfold Document.isNull
  split
  · cases set
  · rfl

/-- A damaged artifact gives way. Whatever bytes it holds, loading gives a valid graph or none and changes no more
than the log, unless the bytes cannot be read. Then a graph is given for units that can be analysed, if the
temporary file can be named. Only a graph whose text has no bytes is built and not given, where it is to be saved. -/
theorem loadOrBuild_despite_damage (located : GraphStore.locateRoot host root = .ok place)
    (directory : world.tree.isDirectory place = true)
    (held : world.tree.look (artifact service.settings place).text = .ok (.file bytes)) :
    Loads bytes world (((GraphStore.file place (artifact service.settings place)).load host).outcome world)
    ∧ (service.builder.frontend.Quiet → units.isSet = true → Analysable host service place units world →
      (service.settings.enableGraphCache = true →
        (∀ fault, ¬ Unreadable bytes fault) ∧ HasRoom world.tree (artifact service.settings place)) →
      (∃ graph after, (service.loadOrBuild host root units false).outcome world = (.ok graph, after))
        ∨ service.settings.enableGraphCache = true ∧ ¬ GivesEncodable host service place units world
          ∧ ∃ flaw after, (service.loadOrBuild host root units false).outcome world =
            (.error (.unencodable flaw), after)) := by
  have fixed := canonical_of_locateRoot located
  obtain ⟨present, _⟩ := Host.locate_eq_ok.mp (locateRoot_text fixed)
  have there : world.tree.isDirectory (Path.absolute host.cwd place) = true := by
    obtain ⟨location, _, rfl⟩ := Host.isCanonical_of_fixed fixed
    rw [Path.absolute_of_isAbsolute (Path.isAbsolute_text location) host.cwd]
    exact directory
  have loading := load_held present there held
  refine ⟨loading, fun quiet set analysable readable => ?_⟩
  have given := isNull_of_isSet set
  have stored : service.store host (.text place) = .ok (if service.settings.enableGraphCache
      then .file place (artifact service.settings place) else .memory place none) := store_text fixed
  -- Loading has changed no more than the log, so a graph that it did not give can be built.
  have rebuilds {store : GraphStore} (opened : Opened host service root world.tree place store) (journal : List LogRecord)
      (loads : (store.load host).outcome world = (.ok none, { world with journal }))
      (kind : store = .memory place none ∨ store = .file place (artifact service.settings place)
        ∧ world.tree.look (artifact service.settings place).text = .ok (.file bytes)
        ∧ HasRoom world.tree (artifact service.settings place)) :
      (∃ graph after, (service.loadOrBuild host root units false).outcome world = (.ok graph, after))
        ∨ store ≠ .memory place none ∧ ¬ GivesEncodable host service place units world
          ∧ ∃ flaw after, (service.loadOrBuild host root units false).outcome world = (.error (.unencodable flaw), after) := by
    rw [loadOrBuild_unforced opened given, loads]
    obtain ⟨graph, analyzed, analysis⟩ := analysable journal
    obtain ⟨after, ran⟩ | ⟨inFile, bare, refused⟩ := rebuild_settles quiet fixed (by exact kind) set analysis
    · exact Or.inl ⟨graph, after, ran⟩
    · exact Or.inr ⟨inFile, fun gives => bare (gives journal graph analyzed analysis), refused⟩
  by_cases cached : service.settings.enableGraphCache = true
  · rw [if_pos cached] at stored
    obtain ⟨readable, room⟩ := readable cached
    have opened : Opened host service root world.tree place _ := ⟨located, directory, stored⟩
    generalize ran : ((GraphStore.file place (artifact service.settings place)).load host).outcome world = result at loading
    cases loading with
    | refused unreadable => exact absurd unreadable (readable _)
    | @given found journal _ _ =>
      cases found with
      | none => exact (rebuilds opened _ ran (Or.inr ⟨rfl, held, room⟩)).imp_right fun refused => ⟨cached, refused.2⟩
      | some graph =>
        rw [(load_eq_some.mp ran).1] at ran
        obtain ⟨final, ran, _⟩ := loadOrBuild_of_load opened ran given
        exact Or.inl ⟨graph, final, ran⟩
  · rw [if_neg cached] at stored
    have opened : Opened host service root world.tree place _ := ⟨located, directory, stored⟩
    exact (rebuilds opened world.journal rfl (Or.inl rfl)).imp_right fun refused => absurd rfl refused.1

section Samples

/-- A project of two files whose artifact holds the given bytes. -/
def damagedWorld (bytes : ByteArray) : World where
  tree := ⟨Saved.sampleTree.entries ++ [(["w", ".typedep_graph"], .directory),
    (["w", ".typedep_graph", "metadata"], .directory), (["w", ".typedep_graph", "metadata", "graph.json"], .file bytes)]⟩

theorem sample_of_analyzeUnder (bytes : ByteArray) (journal : List LogRecord) : ∃ after,
    (openingService.analyzeUnder Saved.sampleHost "/w" (.list [.text "u"])).outcome { damagedWorld bytes with journal } =
      (.ok Saved.sampleGraph, after) :=
  analyzeUnder_openingService { damagedWorld bytes with journal } rfl rfl rfl rfl

theorem analysable_sample (bytes : ByteArray) :
    Analysable Saved.sampleHost openingService "/w" (.list [.text "u"]) (damagedWorld bytes) := by
  intro journal
  obtain ⟨after, ran⟩ := sample_of_analyzeUnder bytes journal
  exact ⟨Saved.sampleGraph, after, ran⟩

theorem givesEncodable_sample (bytes : ByteArray) :
    GivesEncodable Saved.sampleHost openingService "/w" (.list [.text "u"]) (damagedWorld bytes) := by
  intro journal graph final gave
  obtain ⟨after, ran⟩ := sample_of_analyzeUnder bytes journal
  cases ran.symm.trans gave
  exact encodable_sampleGraph

/-- A document that ends too early is given up for a graph of the units. -/
theorem loadOrBuild_despite_damage_truncated :
    ∃ graph after, (openingService.loadOrBuild Saved.sampleHost (.text ".") (.list [.text "u"]) false).outcome
      (damagedWorld "\x7b".toUTF8) = (.ok graph, after) := by
  have fixed : Saved.sampleHost.canonical "/w" = "/w" := by decide +kernel
  have located : GraphStore.locateRoot Saved.sampleHost (.text ".") = .ok "/w" := eq_ok_of_toOption (by decide +kernel)
  have artifact : GraphStore.artifact openingService.settings "/w" = sampleTrail := by decide +kernel
  have looked : (damagedWorld "\x7b".toUTF8).tree.look (GraphStore.artifact openingService.settings "/w").text =
      .ok (.file "\x7b".toUTF8) := by
    rw [artifact]
    exact look_eq_ok.mpr ⟨["w", ".typedep_graph", "metadata", "graph.json"], eq_ok_of_toOption (by decide +kernel), rfl⟩
  have decoded : Text.ofBytes "\x7b".toUTF8 = .ok "\x7b" := Text.ofBytes_toUTF8 (by decide)
  have parsed : Json.parse "\x7b" = .error .malformed := rfl
  have readable : ∀ fault, ¬ Unreadable "\x7b".toUTF8 fault := by
    rintro fault (flawed | ⟨also, refused, _⟩)
    · cases decoded.symm.trans flawed
    · cases decoded.symm.trans also
      cases parsed.symm.trans refused
  have room : HasRoom (damagedWorld "\x7b".toUTF8).tree (GraphStore.artifact openingService.settings "/w") := by
    rw [artifact]
    exact ⟨["w", ".typedep_graph", "metadata", temporaryName 0], eq_ok_of_toOption (by decide +kernel)⟩
  have settled := (loadOrBuild_despite_damage located (by decide +kernel) looked).2 (fun _ _ => rfl) rfl (analysable_sample _)
    fun _ => ⟨readable, room⟩
  exact settled.resolve_right fun refused => refused.2.1 (givesEncodable_sample _)

/-- One byte that starts no character keeps every caller from a graph, though its units can be analysed. -/
theorem loadOrBuild_undecodable :
    Analysable Saved.sampleHost openingService "/w" (.list [.text "u"]) (damagedWorld ⟨#[0xff]⟩)
      ∧ ((GraphStore.file "/w" sampleTrail).load Saved.sampleHost).outcome (damagedWorld ⟨#[0xff]⟩) =
        (.error (.undecodable ⟨0xff, 0, 1, .start⟩), damagedWorld ⟨#[0xff]⟩)
      ∧ ((openingService.loadOrBuild Saved.sampleHost (.text ".") (.list [.text "u"]) false).outcome
        (damagedWorld ⟨#[0xff]⟩)).1 = .error (.undecodable ⟨0xff, 0, 1, .start⟩) := by
  have flawed : Text.ofBytes ⟨#[0xff]⟩ = .error ⟨0xff, 0, 1, .start⟩ := by
    have noText : String.fromUTF8? ⟨#[0xff]⟩ = none := by decide +kernel
    rw [Text.ofBytes, Text.ofUtf8, noText]
    exact congrArg Except.error (by decide +kernel)
  have looked : (damagedWorld ⟨#[0xff]⟩).tree.look sampleTrail.text = .ok (.file ⟨#[0xff]⟩) :=
    look_eq_ok.mpr ⟨["w", ".typedep_graph", "metadata", "graph.json"], eq_ok_of_toOption (by decide +kernel), rfl⟩
  have loads : ((GraphStore.file "/w" sampleTrail).load Saved.sampleHost).outcome (damagedWorld ⟨#[0xff]⟩) =
      (.error (.undecodable ⟨0xff, 0, 1, .start⟩), damagedWorld ⟨#[0xff]⟩) := by
    obtain ⟨journal, ran⟩ := load_file Saved.sampleHost "/w" looked
    rw [ran, flawed]
  refine ⟨analysable_sample _, loads, ?_⟩
  have fixed : Saved.sampleHost.canonical "/w" = "/w" := by decide +kernel
  have artifact : GraphStore.artifact openingService.settings "/w" = sampleTrail := by decide +kernel
  have located : GraphStore.locateRoot Saved.sampleHost (.text ".") = .ok "/w" := eq_ok_of_toOption (by decide +kernel)
  have stored : openingService.store Saved.sampleHost (.text "/w") = .ok (.file "/w" sampleTrail) := by
    rw [← artifact]
    exact store_text fixed
  have opened : Opened Saved.sampleHost openingService (.text ".") (damagedWorld ⟨#[0xff]⟩).tree "/w" _ :=
    ⟨located, by decide +kernel, stored⟩
  rw [loadOrBuild_unforced opened rfl, loads]

end Samples

end DeclGraph.Service
