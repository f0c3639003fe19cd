import DeclGraph.Proofs.UncachedRuns
import DeclGraph.Proofs.VisitParts
import DeclGraph.Proofs.WalkedVisits

/-!
Which files come into the results of a unit. A path that is reported counts for itself if it names a file of the tree;
if not, it counts for the first of its markers that names a known markup file. This is said here in terms of what was
given to the builder, and a build is seen to add nothing to it: whatever cannot be verified is left out, the declaration
if it is its own file and the one dependency if it is another's.
-/

namespace DeclGraph

namespace Builder

open Context

/-- What an analysis is asked for: a unit of a frontend, in a file tree, with the endings of markup files and, if they are
not those that the unit reports, the markup files. -/
structure Setup where
  frontend : Frontend
  host : Host
  tree : FileTree
  unit : CompilationUnit
  extensions : List Document
  supplied : Option (List Document)

namespace Setup

def builder (setup : Setup) : Except Fault Builder :=
  Builder.create setup.host setup.frontend setup.extensions setup.supplied

def EndsRight (setup : Setup) (path : String) : Prop :=
  ∃ ending, .text ending ∈ setup.extensions ∧ (Text.lower ending).toList <:+ (Text.lower path).toList

/-- The known markup files: those that were supplied, in any spelling, or else those that the unit reports, as far as they
have one of the endings and are there. -/
inductive Known (setup : Setup) : String → Prop
  | supplied {files : List Document} {value : Document} {file : String} (given : setup.supplied = some files)
      (listed : value ∈ files) (located : setup.host.locateValue value = .ok file) : Known setup file
  | reported {paths : List String} {path : String} (unsupplied : setup.supplied = none)
      (given : setup.frontend.markupFiles setup.unit = .ok paths) (listed : path ∈ paths) (present : path ≠ "")
      (ends : setup.EndsRight path) (there : setup.tree.isFile (setup.host.canonical path) = true) :
      Known setup (setup.host.canonical path)

/-- A marker, seen from the directory of the unit, is the path of a known markup file that is there. -/
structure Qualifies (setup : Setup) (marker file : String) : Prop where
  present : marker ≠ ""
  ends : setup.EndsRight marker
  names : setup.host.canonical (Path.joinTo (Path.directory (setup.host.canonical setup.unit.path)) marker) = file
  there : setup.tree.isFile file = true
  known : setup.Known file

/-- A reported value is verified by a file: its path names the file, or it names none and the file is that of its first
marker that qualifies. -/
inductive Verifies (setup : Setup) : Document → String → Prop
  | own {path : String} (present : path ≠ "") (there : setup.tree.isFile (setup.host.canonical path) = true) :
      Verifies setup (.text path) (setup.host.canonical path)
  | marked {path file marker : String} {before after : List String} (present : path ≠ "")
      (missing : setup.tree.isFile (setup.host.canonical path) = false)
      (given : setup.frontend.markers setup.unit path = .ok (before ++ marker :: after))
      (skipped : ∀ other ∈ before, ∀ file, ¬ setup.Qualifies other file) (qualifies : setup.Qualifies marker file) :
      Verifies setup (.text path) file

abbrev symbols (setup : Setup) : SymbolTable := setup.frontend.symbols setup.unit

/-- A result is that of a declaration: its file is verified, and it depends on the other files that are verified for what
the symbol refers to, and on no more. -/
structure Tells (setup : Setup) (declaration : TypeDeclaration) (result : FileDependencies) (ref : TypeRef)
    (reported : List Document) : Prop where
  symbol : setup.frontend.symbolOf setup.unit declaration = .ok (some ref)
  verified : setup.Verifies declaration.file result.file
  walked : setup.symbols.dependencies ref = .ok reported
  declared : ∀ value ∈ reported, ∃ symbol ∈ setup.symbols.types.toList, symbol.file = value
  depends : ∀ dependency, dependency ∈ result.dependencies ↔
    dependency ≠ result.file ∧ ∃ value ∈ reported, setup.Verifies value dependency

/-- What a declaration gives: nothing if it has no symbol or its file is not verified, else its result. -/
inductive Gives (setup : Setup) (declaration : TypeDeclaration) : Option FileDependencies → Prop
  | unknown (symbol : setup.frontend.symbolOf setup.unit declaration = .ok none) : Gives setup declaration none
  | dropped (unverified : ∀ file, ¬ setup.Verifies declaration.file file) : Gives setup declaration none
  | told {result : FileDependencies} {ref : TypeRef} {reported : List Document}
      (tells : setup.Tells declaration result ref reported) : Gives setup declaration (some result)

def Walks (setup : Setup) (ref : TypeRef) : Prop :=
  ∃ reported, setup.symbols.dependencies ref = .ok reported ∧ ∀ value ∈ reported, ∃ path, value = .text path ∧ path ≠ ""

structure Fits (setup : Setup) (context : Context) : Prop where
  frontend : context.builder.frontend = setup.frontend
  host : context.host = setup.host
  tree : context.tree = setup.tree
  unit : context.unit = setup.unit
  endings : ∀ path, context.builder.hasMarkupExtension path = true ↔ setup.EndsRight path
  markup : ∀ file, file ∈ context.markup ↔ setup.Known file

variable {setup : Setup} {context : Context} {builder : Builder}

theorem endings_of_mapM {endings : List String} (given : setup.extensions.mapM lowerExtension = .ok endings)
    (path : String) : (endings.any fun ending => ending.toList.isSuffixOf (Text.lower path).toList) = true ↔
      setup.EndsRight path := by
  have pairs := mapM_eq_ok.mp given
  simp only [List.any_eq_true, List.isSuffixOf_iff_suffix]
  constructor
  · rintro ⟨ending, listed, suffix⟩
    obtain ⟨value, member, lowered⟩ := exists_of_mem_right pairs listed
    cases value with
    | scalar value =>
      cases value with
      | text value =>
        cases lowered
        exact ⟨value, member, suffix⟩
      | _ => cases lowered
    | _ => cases lowered
  · rintro ⟨value, member, suffix⟩
    obtain ⟨ending, listed, lowered⟩ := exists_of_mem_left pairs member
    cases lowered
    exact ⟨_, listed, suffix⟩

theorem mem_existingMarkup {paths : List String} {file : String} :
    file ∈ builder.existingMarkup setup.host setup.tree paths ↔ ∃ path ∈ paths, path ≠ ""
      ∧ builder.hasMarkupExtension path = true ∧ setup.tree.isFile file = true ∧ setup.host.canonical path = file := by
  simp only [existingMarkup, List.mem_filter, List.mem_map, decide_eq_true_eq]
  constructor
  · rintro ⟨⟨path, ⟨listed, present, ends⟩, rfl⟩, there⟩
    exact ⟨path, listed, present, ends, there, rfl⟩
  · rintro ⟨path, listed, present, ends, there, rfl⟩
    exact ⟨⟨path, ⟨listed, present, ends⟩, rfl⟩, there⟩

theorem fits_of_known (created : setup.builder = .ok builder) {markup : FileSet}
    (known : builder.knownMarkup setup.host setup.tree setup.unit = .ok markup) :
    setup.Fits (builder.inUnit setup.host setup.tree setup.unit markup) := by
  obtain ⟨endings, given, created⟩ := bind_eq_ok.mp created
  cases supplied : setup.supplied with
  | none =>
    rw [supplied] at created
    cases created
    obtain ⟨paths, reported, same⟩ := bind_eq_ok.mp known
    cases same
    have ends := endings_of_mapM given
    refine ⟨rfl, rfl, rfl, rfl, ends, fun file => ?_⟩
    rw [FileSet.mem_ofList, mem_existingMarkup]
    constructor
    · rintro ⟨path, listed, present, right, there, rfl⟩
      exact .reported supplied reported listed present ((ends path).mp right) there
    · rintro (⟨others, _, _⟩ | ⟨_, found, listed, present, right, there⟩)
      · cases supplied.symm.trans others
      · cases reported.symm.trans found
        exact ⟨_, listed, present, (ends _).mpr right, there, rfl⟩
  | some files =>
    rw [supplied] at created
    obtain ⟨places, located, same⟩ := bind_eq_ok.mp created
    cases same
    cases known
    refine ⟨rfl, rfl, rfl, rfl, endings_of_mapM given, fun file => ?_⟩
    rw [FileSet.mem_ofList]
    have pairs := mapM_eq_ok.mp located
    constructor
    · intro member
      obtain ⟨value, listed, found⟩ := exists_of_mem_right pairs member
      exact .supplied supplied listed found
    · rintro (⟨others, listed, found⟩ | ⟨unsupplied, _, _, _, _, _⟩)
      · cases supplied.symm.trans others
        obtain ⟨place, member, same⟩ := exists_of_mem_left pairs listed
        cases found.symm.trans same
        exact member
      · cases supplied.symm.trans unsupplied

theorem knownMarkup_isOk (created : setup.builder = .ok builder)
    (answered : setup.supplied = none → ∃ paths, setup.frontend.markupFiles setup.unit = .ok paths) :
    ∃ markup, builder.knownMarkup setup.host setup.tree setup.unit = .ok markup := by
  obtain ⟨endings, _, created⟩ := bind_eq_ok.mp created
  cases supplied : setup.supplied with
  | none =>
    rw [supplied] at created
    cases created
    obtain ⟨paths, given⟩ := answered supplied
    exact ⟨_, bind_eq_ok.mpr ⟨paths, given, rfl⟩⟩
  | some files =>
    rw [supplied] at created
    obtain ⟨places, _, same⟩ := bind_eq_ok.mp created
    cases same
    exact ⟨_, rfl⟩

section Paths

variable (fits : setup.Fits context)
include fits

theorem markedFile_iff {marker file : String} :
    context.markedFile (Path.directory (setup.host.canonical setup.unit.path)) marker = some file ↔
      setup.Qualifies marker file := by
  rw [markedFile, fits.host, fits.tree]
  split
  next refused =>
    constructor
    · intro none
      cases none
    · intro qualifies
      rcases refused with empty | unending
      · exact absurd empty qualifies.present
      · rw [(fits.endings marker).mpr qualifies.ends] at unending
        cases unending
  next accepted =>
    obtain ⟨present, ends⟩ := not_or.mp accepted
    have right := (fits.endings marker).mp (by simpa using ends)
    dsimp only
    split
    next known =>
      constructor
      · rintro ⟨⟩
        exact ⟨present, right, rfl, known.1, (fits.markup _).mp known.2⟩
      · intro qualifies
        exact congrArg some qualifies.names
    next unknown =>
      constructor
      · intro none
        cases none
      · intro qualifies
        rw [qualifies.names] at unknown
        exact absurd ⟨qualifies.there, (fits.markup _).mpr qualifies.known⟩ unknown

theorem firstMarker_iff {path file : String} {markers : List String} (present : path ≠ "")
    (missing : setup.tree.isFile (setup.host.canonical path) = false)
    (given : setup.frontend.markers setup.unit path = .ok markers) :
    markers.findSome? (context.markedFile (Path.directory (setup.host.canonical setup.unit.path))) = some file ↔
      setup.Verifies (.text path) file := by
  have unmarked (marker : String) :
      context.markedFile (Path.directory (setup.host.canonical setup.unit.path)) marker = none ↔
        ∀ file, ¬ setup.Qualifies marker file := by
    rw [Option.eq_none_iff_forall_ne_some]
    exact forall_congr' fun file => not_congr (markedFile_iff fits)
  rw [List.findSome?_eq_some_iff]
  constructor
  · rintro ⟨before, marker, after, rfl, marked, skipped⟩
    exact .marked present missing given (fun other member => (unmarked other).mp (skipped other member))
      ((markedFile_iff fits).mp marked)
  · intro verifies
    cases verifies with
    | own _ there => rw [missing] at there; cases there
    | marked _ _ also skipped qualifies =>
      cases given.symm.trans also
      exact ⟨_, _, _, rfl, (markedFile_iff fits).mpr qualifies, fun other member => (unmarked other).mpr (skipped other member)⟩

/-- What a path is found to stand for is what verifies it. -/
theorem resolve_iff {path : String} {found : Option String} (resolved : context.resolve path = .ok found) (file : String) :
    found = some file ↔ setup.Verifies (.text path) file := by
  obtain ⟨place, located, resolved⟩ := bind_eq_ok.mp resolved
  obtain ⟨present, rfl⟩ := Host.locate_eq_ok.mp located
  rw [fits.host, fits.tree] at resolved
  split at resolved
  next there =>
    cases resolved
    constructor
    · rintro ⟨⟩
      exact .own present there
    · intro verifies
      cases verifies with
      | own _ _ => rfl
      | marked _ missing _ _ _ => rw [there] at missing; cases missing
  next missing =>
    obtain ⟨unitPath, unitLocated, resolved⟩ := bind_eq_ok.mp resolved
    obtain ⟨markers, given, same⟩ := bind_eq_ok.mp resolved
    rw [fits.host, fits.unit] at unitLocated
    rw [fits.frontend, fits.unit] at given
    obtain ⟨_, rfl⟩ := Host.locate_eq_ok.mp unitLocated
    rw [← Except.ok.inj same, firstMarker_iff fits present (by simpa using missing) given]

theorem resolveAfresh_iff {value : Document} {found : Option String} (resolved : context.resolveAfresh value = .ok found)
    (file : String) : found = some file ↔ setup.Verifies value file := by
  by_cases text : ∃ path, value = .text path
  · obtain ⟨path, rfl⟩ := text
    rw [resolveAfresh_text] at resolved
    exact resolve_iff fits resolved file
  · obtain ⟨fault, refused⟩ := resolveValue_refused context fun path same => text ⟨path, same⟩
    rw [resolveAfresh, refused] at resolved
    cases resolved

theorem mem_others_iff {reported : List Document} {found : List (Option String)}
    (looked : reported.mapM context.resolveAfresh = .ok found) (file dependency : String) :
    dependency ∈ FileSet.ofList (others file found) ↔
      dependency ≠ file ∧ ∃ value ∈ reported, setup.Verifies value dependency := by
  have pairs := mapM_eq_ok.mp looked
  simp only [FileSet.mem_ofList, others, List.mem_filter, List.mem_filterMap, id, decide_eq_true_eq]
  rw [and_comm]
  apply and_congr_right
  intro _
  constructor
  · rintro ⟨place, member, rfl⟩
    obtain ⟨value, listed, resolved⟩ := exists_of_mem_right pairs member
    exact ⟨value, listed, (resolveAfresh_iff fits resolved dependency).mp rfl⟩
  · rintro ⟨value, listed, verifies⟩
    obtain ⟨place, member, resolved⟩ := exists_of_mem_left pairs listed
    exact ⟨place, member, (resolveAfresh_iff fits resolved dependency).mpr verifies⟩

theorem gives_analyzeAfresh {declaration : TypeDeclaration} {given : Option FileDependencies}
    (analysed : context.analyzeAfresh declaration = .ok given) : setup.Gives declaration given := by
  have symbols : context.symbols = setup.symbols := by rw [Context.symbols, fits.frontend, fits.unit]
  obtain ⟨symbol, known, analysed⟩ := bind_eq_ok.mp analysed
  rw [fits.frontend, fits.unit] at known
  cases symbol with
  | none =>
    cases analysed
    exact .unknown known
  | some ref =>
    obtain ⟨source, resolved, analysed⟩ := bind_eq_ok.mp analysed
    have stands := resolveAfresh_iff fits resolved
    cases source with
    | none =>
      cases analysed
      exact .dropped fun file verifies => nomatch (stands file).mpr verifies
    | some file =>
      obtain ⟨reported, walked, analysed⟩ := bind_eq_ok.mp analysed
      obtain ⟨found, looked, same⟩ := bind_eq_ok.mp analysed
      cases same
      rw [symbols] at walked
      refine .told ⟨known, (stands file).mp rfl, walked, fun value listed => ?_,
        fun dependency => mem_others_iff fits looked file dependency⟩
      obtain ⟨visit, contributed⟩ := SymbolTable.reported_of_dependencies walked listed
      obtain ⟨symbol, stands, same, _⟩ := SymbolTable.symbol_of_fileOf contributed
      exact ⟨symbol, stands, same⟩

theorem gives_files {files : List String} {given : List (List (Option FileDependencies))}
    (ran : files.mapM context.fileAfresh = .ok given) :
    ∃ declarations, (files.filter (· ≠ "")).mapM (setup.frontend.declarations setup.unit) = .ok declarations
      ∧ List.Forall₂ setup.Gives declarations.flatten given.flatten := by
  simp only [mapM_eq_ok] at ran ⊢
  induction ran with
  | nil => exact ⟨[], .nil, .nil⟩
  | @cons file one rest others first _ ih =>
    obtain ⟨declarations, listed, gives⟩ := ih
    rw [fileAfresh] at first
    split at first
    next nameless =>
      cases first
      exact ⟨declarations, by simpa [nameless] using listed, gives⟩
    next named =>
      obtain ⟨own, declared, analysed⟩ := bind_eq_ok.mp first
      rw [fits.frontend, fits.unit] at declared
      refine ⟨own :: declarations, ?_, ?_⟩
      · rw [List.filter_cons, if_pos (by simpa using named)]
        exact .cons declared listed
      · exact List.rel_append ((mapM_eq_ok.mp analysed).imp fun _ _ => gives_analyzeAfresh fits) gives

end Paths

theorem there_of_verifies {value : Document} {file : String} (verifies : setup.Verifies value file) :
    There setup.host setup.tree file := by
  cases verifies with
  | own _ there => exact ⟨Saved.locate_canonical _ _, there⟩
  | marked _ _ _ _ qualifies =>
    obtain ⟨_, _, rfl, there, _⟩ := qualifies
    exact ⟨Saved.locate_canonical _ _, there⟩

theorem there_of_tells {declaration : TypeDeclaration} {result : FileDependencies} {ref : TypeRef}
    {reported : List Document} (tells : setup.Tells declaration result ref reported) :
    result.file ∉ result.dependencies ∧ ResultThere setup.host setup.tree result := by
  refine ⟨fun self => ((tells.depends result.file).mp self).1 rfl, there_of_verifies tells.verified, ?_⟩
  intro dependency member
  obtain ⟨_, value, _, verifies⟩ := (tells.depends dependency).mp member
  exact there_of_verifies verifies

/-- What the declarations give when nothing is remembered is told by the setup alone. -/
theorem results_tell (created : setup.builder = .ok builder) {results : List FileDependencies}
    (fresh : builder.resultsAfresh setup.host setup.tree setup.unit = .ok results) :
    (∀ result ∈ results, result.file ∉ result.dependencies ∧ ResultThere setup.host setup.tree result)
      ∧ ∃ files declarations given, setup.frontend.sourceFiles setup.unit = .ok files
        ∧ (files.filter (· ≠ "")).mapM (setup.frontend.declarations setup.unit) = .ok declarations
        ∧ List.Forall₂ setup.Gives declarations.flatten given ∧ results = given.filterMap id := by
  obtain ⟨markup, known, fresh⟩ := bind_eq_ok.mp fresh
  obtain ⟨files, sources, fresh⟩ := bind_eq_ok.mp fresh
  obtain ⟨given, analysed, same⟩ := bind_eq_ok.mp fresh
  cases same
  have fits := fits_of_known created known
  obtain ⟨declarations, listed, gives⟩ := gives_files fits analysed
  rw [fits.frontend] at sources
  refine ⟨fun result member => ?_, files, declarations, _, sources, listed, gives, rfl⟩
  obtain ⟨_, inside, rfl⟩ := List.mem_filterMap.mp member
  obtain ⟨declaration, _, told⟩ := exists_of_mem_right gives inside
  cases told with
  | told tells => exact there_of_tells tells

theorem resultsOf_isOk (created : setup.builder = .ok builder) {files : List String}
    (sources : setup.frontend.sourceFiles setup.unit = .ok files) (serves : Serves setup.frontend setup.unit files)
    (answered : setup.supplied = none → ∃ paths, setup.frontend.markupFiles setup.unit = .ok paths)
    (walks : ∀ declaration ref file, setup.frontend.symbolOf setup.unit declaration = .ok (some ref) →
      setup.Verifies declaration.file file → setup.Walks ref) :
    ∃ results, builder.resultsOf setup.host setup.tree setup.unit = .ok results := by
  obtain ⟨markup, known⟩ := knownMarkup_isOk created answered
  have fits := fits_of_known created known
  have runs : ∃ progress, (builder.inUnit setup.host setup.tree setup.unit markup).analyze files = .ok progress := by
    refine analyze_isOk (fits.frontend ▸ serves) fun declaration _ ref file analysed => ?_
    obtain ⟨symbol, path, named, resolved⟩ := analysed
    rw [fits.frontend] at symbol
    obtain ⟨reported, walked, paths⟩ := walks declaration ref file symbol (named ▸ (resolve_iff fits resolved file).mp rfl)
    exact ⟨reported, by rw [Context.symbols, fits.frontend, walked], paths⟩
  obtain ⟨progress, ran⟩ := runs
  rw [← fits.frontend] at sources
  exact ⟨progress.results, bind_eq_ok.mpr ⟨markup, known, bind_eq_ok.mpr ⟨files, sources, bind_eq_ok.mpr ⟨progress, ran, rfl⟩⟩⟩⟩

/-- The results of a unit name no file that is not verified, whatever the frontend reports. They are what the declarations
give one by one with nothing remembered: a declaration whose own file cannot be verified gives no result, and what cannot
be verified for another type is left out of the dependencies. What is remembered for a path is what verifies it. Paths
that stand for nothing do not make a run fail: there are results if the frontend answers and the symbols can be walked. -/
theorem results_are_verified (setup : Setup) {builder : Builder} (created : setup.builder = .ok builder) (thread : String)
    (world : World) (standing : world.tree = setup.tree) :
    ((builder.directDependencies setup.host thread setup.unit).outcome world).1 =
        builder.resultsAfresh setup.host setup.tree setup.unit
      ∧ (∀ results after, (builder.directDependencies setup.host thread setup.unit).outcome world = (.ok results, after) →
        (∀ result ∈ results, result.file ∉ result.dependencies ∧ ResultThere setup.host setup.tree result)
        ∧ ∃ files declarations given, setup.frontend.sourceFiles setup.unit = .ok files
          ∧ (files.filter (· ≠ "")).mapM (setup.frontend.declarations setup.unit) = .ok declarations
          ∧ List.Forall₂ setup.Gives declarations.flatten given ∧ results = given.filterMap id)
      ∧ (∀ markup files progress, builder.knownMarkup setup.host setup.tree setup.unit = .ok markup →
        (builder.inUnit setup.host setup.tree setup.unit markup).analyze files = .ok progress →
        ∀ path found, progress.cache.lookup path = some found →
          ∀ file, found = some file ↔ setup.Verifies (.text path) file)
      ∧ ∀ files, setup.frontend.sourceFiles setup.unit = .ok files → Serves setup.frontend setup.unit files →
        (setup.supplied = none → ∃ paths, setup.frontend.markupFiles setup.unit = .ok paths) →
        (∀ declaration ref file, setup.frontend.symbolOf setup.unit declaration = .ok (some ref) →
          setup.Verifies declaration.file file → setup.Walks ref) →
        ∃ results after, (builder.directDependencies setup.host thread setup.unit).outcome world = (.ok results, after) := by
  obtain ⟨calls, journal, outcome⟩ := directDependencies_outcome builder setup.host thread setup.unit world
  rw [standing] at outcome
  rw [outcome]
  refine ⟨resultsOf_eq_afresh builder setup.host setup.tree setup.unit, fun results after ran => ?_,
    fun markup files progress known ran path found remembered file => ?_, fun files sources serves answered walks => ?_⟩
  · have given := (Prod.mk.inj ran).1
    rw [resultsOf_eq_afresh] at given
    exact results_tell created given
  · exact resolve_iff (fits_of_known created known) ((sound_analyze ran).remembers path found remembered) file
  · obtain ⟨results, given⟩ := resultsOf_isOk created sources serves answered walks
    exact ⟨results, _, by rw [given]⟩

section Sample

def generatedTable : SymbolTable where
  types := #[
    { id := .text "A", name := .text "A", file := .text "gen/a.cs", base := some 1, interfaces := [some 2] },
    { id := .text "B", name := .text "B", file := .text "b.cs" },
    { id := .text "C", name := .text "C", file := .text "gen/c.cs", base := some 0 }]

def generatedFrontend : Frontend where
  name := "generated"
  openUnit _ := throw .wrongShape
  sourceFiles _ := .ok ["gen/a.cs", "", "gen/c.cs"]
  declarations _ file := if file = "" then .error .wrongShape else .ok [⟨.text file, .text file, .text file⟩]
  symbols _ := generatedTable
  symbolOf _ declaration := .ok (some (if declaration.handle.text? = some "gen/a.cs" then 0 else 2))
  markers _ path :=
    .ok (if path = "gen/a.cs" then ["", "b.cs", "gone.razor", "other.razor", "./Page.Razor"] else ["other.razor"])
  markupFiles _ := .ok ["Page.Razor", "gone.razor", "b.cs"]

def generated : Setup where
  frontend := generatedFrontend
  host := Saved.sampleHost
  tree := ⟨[(["w"], .directory), (["w", "b.cs"], .file ByteArray.empty), (["w", "other.razor"], .file ByteArray.empty),
    (["w", "Page.Razor"], .file ByteArray.empty)]⟩
  unit := ⟨"/w/u", "u", default⟩
  extensions := [.text ".RAZOR"]
  supplied := none

def generatedBuilder : Builder := ⟨generatedFrontend, [".razor"], none⟩

theorem create_generated : generated.builder = .ok generatedBuilder := by
  have endings : [Document.text ".RAZOR"].mapM lowerExtension = .ok [".razor"] := eq_ok_of_toOption (by decide +kernel)
  show ([Document.text ".RAZOR"].mapM lowerExtension >>= _) = _
  rw [endings]
  rfl

theorem fits_generated :
    generated.Fits (generatedBuilder.inUnit generated.host generated.tree generated.unit ["/w/Page.Razor"]) :=
  fits_of_known create_generated (eq_ok_of_toOption (by decide +kernel))

theorem walks_generated : generated.symbols.dependencies 0 = .ok [.text "b.cs", .text "gen/c.cs"]
    ∧ generated.symbols.dependencies 2 = .ok [.text "gen/a.cs"] := by
  have first : generatedTable.walkWithin 20 generatedTable.marks [.root 0] [] = some (.ok [.text "b.cs", .text "gen/c.cs"]) := rfl
  have last : generatedTable.walkWithin 20 generatedTable.marks [.root 2] [] = some (.ok [.text "gen/a.cs"]) := rfl
  exact ⟨SymbolTable.walk_of_within first, SymbolTable.walk_of_within last⟩

theorem verifies_generated (file : String) : (generated.Verifies (.text "gen/a.cs") file ↔ file = "/w/Page.Razor")
    ∧ (generated.Verifies (.text "b.cs") file ↔ file = "/w/b.cs") ∧ ¬ generated.Verifies (.text "gen/c.cs") file := by
  refine ⟨?_, ?_, ?_⟩
  · rw [← resolve_iff fits_generated (eq_ok_of_toOption (show _ = some (some "/w/Page.Razor") by decide +kernel)) file]
    simp [eq_comm]
  · rw [← resolve_iff fits_generated (eq_ok_of_toOption (show _ = some (some "/w/b.cs") by decide +kernel)) file]
    simp [eq_comm]
  · rw [← resolve_iff fits_generated (eq_ok_of_toOption (show _ = some none by decide +kernel)) file]
    simp

theorem serves_generated : Serves generated.frontend generated.unit ["gen/a.cs", "", "gen/c.cs"] where
  unitPath := by decide
  markers _ _ := ⟨_, rfl⟩
  declarations file _ present := ⟨_, if_neg present⟩
  symbols file _ found given declaration member := by
    simp only [generated, generatedFrontend] at given
    split at given
    · cases given
    next present =>
      cases given
      obtain rfl := List.mem_singleton.mp member
      exact ⟨⟨_, rfl⟩, file, rfl, present⟩

theorem results_are_verified_generated :
    ∃ result after, (generatedBuilder.directDependencies generated.host "t" generated.unit).outcome
        ⟨generated.tree, [], [], [], []⟩ = (.ok [result], after)
      ∧ result.file = "/w/Page.Razor" ∧ ∀ dependency, dependency ∈ result.dependencies ↔ dependency = "/w/b.cs" := by
  obtain ⟨_, each, _, succeeds⟩ :=
    results_are_verified generated create_generated "t" ⟨generated.tree, [], [], [], []⟩ rfl
  have walks : ∀ declaration ref file, generated.frontend.symbolOf generated.unit declaration = .ok (some ref) →
      generated.Verifies declaration.file file → generated.Walks ref := by
    rintro declaration ref file ⟨⟩ _
    split
    · exact ⟨_, walks_generated.1, by simp [Document.text]⟩
    · exact ⟨_, walks_generated.2, by simp [Document.text]⟩
  obtain ⟨results, after, ran⟩ := succeeds _ rfl serves_generated (fun _ => ⟨_, rfl⟩) walks
  obtain ⟨_, files, declarations, given, sources, listed, gives, rfl⟩ := each results after ran
  cases sources
  cases listed
  obtain ⟨one, _, first, others, rfl⟩ := List.forall₂_cons_left_iff.mp gives
  obtain ⟨two, _, second, no, rfl⟩ := List.forall₂_cons_left_iff.mp others
  obtain rfl := List.forall₂_nil_left_iff.mp no
  -- The first declaration is that of a markup file, the second one is dropped.
  obtain rfl : two = none := by
    cases second with
    | unknown symbol => rfl
    | dropped unverified => rfl
    | told tells => exact absurd tells.verified (verifies_generated _).2.2
  cases first with
  | unknown symbol => cases symbol
  | dropped unverified => exact absurd ((verifies_generated _).1.mpr rfl) (unverified _)
  | @told result ref reported tells =>
    have file := (verifies_generated _).1.mp tells.verified
    refine ⟨result, after, ran, file, fun dependency => ?_⟩
    cases tells.symbol
    cases walks_generated.1.symm.trans tells.walked
    rw [tells.depends, file]
    simp only [List.mem_cons, List.not_mem_nil, or_false, exists_eq_or_imp, exists_eq_left, verifies_generated]
    constructor
    · exact fun inside => inside.2
    · rintro rfl
      exact ⟨by decide, rfl⟩

end Sample

end Setup

end Builder

end DeclGraph
