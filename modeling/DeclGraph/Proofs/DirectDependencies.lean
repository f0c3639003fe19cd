import DeclGraph.Builder
import DeclGraph.Proofs.Coherence
import DeclGraph.Proofs.Reload
import DeclGraph.Proofs.Traversal

/-!
The graph of a compilation unit. Each declaration whose symbol and file are known gives one result, with
the files that the types it refers to are declared in; paths are remembered once they are resolved, which
changes nothing. So the edges of the graph that the results are joined to are exactly the references
between declared types, seen from file to file.
-/

namespace DeclGraph.Builder.Context

variable {context : Context}

section Resolving

/-- What is remembered is what resolving gives. -/
def Remembers (context : Context) (cache : PathCache) : Prop :=
  ∀ path known, cache.lookup path = some known → context.resolve path = .ok known

theorem remembers_nil : context.Remembers [] := by simp [Remembers]

theorem remembers_cons {cache : PathCache} (sound : context.Remembers cache) {path : String}
    {found : Option String} (resolved : context.resolve path = .ok found) :
    context.Remembers ((path, found) :: cache) := by
  intro other known looked
  by_cases same : other = path
  · subst same
    rw [List.lookup_cons_self] at looked
    cases looked
    exact resolved
  · have different : (other == path) = false := by simpa using same
    rw [List.lookup_cons, different] at looked
    exact sound other known looked

theorem resolveCached_eq_ok {cache next : PathCache} (sound : context.Remembers cache) {path : String}
    {found : Option String} (resolved : context.resolveCached cache path = .ok (found, next)) :
    context.resolve path = .ok found ∧ context.Remembers next := by
  unfold resolveCached at resolved
  split at resolved
  next known looked =>
    cases resolved
    exact ⟨sound path found looked, sound⟩
  next =>
    obtain ⟨value, given, same⟩ := bind_eq_ok.mp resolved
    cases same
    exact ⟨given, remembers_cons sound given⟩

theorem resolveCached_isOk {cache : PathCache} (sound : context.Remembers cache) {path : String}
    {found : Option String} (resolved : context.resolve path = .ok found) :
    ∃ next, context.resolveCached cache path = .ok (found, next) := by
  unfold resolveCached
  split
  next known looked =>
    cases resolved.symm.trans (sound path known looked)
    exact ⟨cache, rfl⟩
  next =>
    rw [resolved]
    exact ⟨_, rfl⟩

/-- A reported value stands for a file when it is a text that resolves to the file. -/
def StandsFor (context : Context) (value : Document) (file : String) : Prop :=
  ∃ path, value = .text path ∧ context.resolve path = .ok (some file)

theorem resolveValue_refused (context : Context) {value : Document} (other : ∀ path, value ≠ .text path) :
    ∃ fault, ∀ cache, context.resolveValue cache value = .error fault := by
  have unlocated : ∃ fault, context.host.locateValue value = .error fault := by
    cases located : context.host.locateValue value with
    | error fault => exact ⟨fault, rfl⟩
    | ok place =>
      obtain ⟨path, same, _⟩ := Host.locateValue_eq_ok located
      exact absurd same (other path)
  obtain ⟨fault, unlocated⟩ := unlocated
  cases keyed : value.key? with
  | none => exact ⟨.notName value.kindWord, fun cache => by rw [resolveValue.eq_2 _ _ _ other, keyed]⟩
  | some key => exact ⟨fault, fun cache => by rw [resolveValue.eq_2 _ _ _ other, keyed, unlocated]; rfl⟩

theorem resolveValue_eq_ok {cache next : PathCache} (sound : context.Remembers cache) {value : Document}
    {found : Option String} (resolved : context.resolveValue cache value = .ok (found, next)) :
    context.Remembers next ∧ ∀ file, found = some file ↔ context.StandsFor value file := by
  by_cases text : ∃ path, value = .text path
  · obtain ⟨path, rfl⟩ := text
    have given := resolveCached_eq_ok sound resolved
    refine ⟨given.2, fun file => ?_⟩
    constructor
    · rintro rfl
      exact ⟨path, rfl, given.1⟩
    · rintro ⟨other, same, resolvedTo⟩
      cases same
      exact Except.ok.inj (given.1.symm.trans resolvedTo)
  · obtain ⟨fault, refused⟩ := resolveValue_refused context fun path same => text ⟨path, same⟩
    rw [refused] at resolved
    cases resolved

theorem resolveAll_eq_ok {file : String} {reported : List Document} {cache next : PathCache} {files : FileSet}
    (sound : context.Remembers cache) (resolved : context.resolveAll file cache reported = .ok (files, next)) :
    context.Remembers next ∧ ∀ dependency, dependency ∈ files ↔
      dependency ≠ file ∧ ∃ value ∈ reported, context.StandsFor value dependency := by
  induction reported generalizing cache next files with
  | nil =>
    cases resolved
    exact ⟨sound, by simp⟩
  | cons value rest ih =>
    obtain ⟨⟨found, middle⟩, first, resolved⟩ := bind_eq_ok.mp resolved
    obtain ⟨⟨others, last⟩, later, same⟩ := bind_eq_ok.mp resolved
    obtain ⟨kept, stands⟩ := resolveValue_eq_ok sound first
    obtain ⟨final, members⟩ := ih kept later
    have head (dependency : String) :
        (∃ given ∈ value :: rest, context.StandsFor given dependency) ↔
          found = some dependency ∨ ∃ given ∈ rest, context.StandsFor given dependency := by
      rw [List.exists_mem_cons_iff, stands dependency]
    cases found with
    | none =>
      cases same
      refine ⟨final, fun dependency => ?_⟩
      rw [members, head]
      simp
    | some own =>
      cases same
      refine ⟨final, fun dependency => ?_⟩
      rw [head, Option.some.injEq]
      -- The declaring file is left out, wherever it comes up.
      by_cases self : own = file
      · rw [if_pos self, members]
        constructor
        · exact fun ⟨different, inside⟩ => ⟨different, Or.inr inside⟩
        · rintro ⟨different, rfl | inside⟩
          · exact absurd self different
          · exact ⟨different, inside⟩
      · rw [if_neg self, FileSet.mem_insert, members]
        constructor
        · rintro (rfl | ⟨different, inside⟩)
          · exact ⟨self, Or.inl rfl⟩
          · exact ⟨different, Or.inr inside⟩
        · rintro ⟨different, rfl | inside⟩
          · exact Or.inl rfl
          · exact Or.inr ⟨different, inside⟩

theorem resolveAll_isOk {file : String} {reported : List Document} {cache : PathCache}
    (sound : context.Remembers cache)
    (each : ∀ value ∈ reported, ∃ path found, value = .text path ∧ context.resolve path = .ok found) :
    ∃ files next, context.resolveAll file cache reported = .ok (files, next) := by
  induction reported generalizing cache with
  | nil => exact ⟨[], cache, rfl⟩
  | cons value rest ih =>
    obtain ⟨path, found, rfl, resolved⟩ := each value List.mem_cons_self
    obtain ⟨middle, first⟩ := resolveCached_isOk sound resolved
    have kept := (resolveCached_eq_ok sound first).2
    obtain ⟨others, last, later⟩ := ih kept fun value member => each value (List.mem_cons_of_mem _ member)
    have opened : context.resolveValue cache (.text path) = .ok (found, middle) := first
    rw [resolveAll, opened]
    show ∃ files next, (context.resolveAll file middle rest >>= _) = .ok (files, next)
    rw [later]
    cases found with
    | none => exact ⟨_, _, rfl⟩
    | some own => exact ⟨_, _, rfl⟩

def There (host : Host) (tree : FileTree) (file : String) : Prop :=
  host.locate file = .ok file ∧ tree.isFile file = true

theorem there_canonical {path : String} (found : context.tree.isFile (context.host.canonical path) = true) :
    There context.host context.tree (context.host.canonical path) :=
  ⟨Saved.locate_canonical context.host path, found⟩

theorem there_of_markedFile {unitDirectory marker file : String}
    (marked : context.markedFile unitDirectory marker = some file) : There context.host context.tree file := by
  rw [markedFile] at marked
  split at marked
  · cases marked
  · simp only at marked
    split at marked
    · next known =>
      cases marked
      exact there_canonical known.1
    · cases marked

theorem there_of_resolve {path file : String} (resolved : context.resolve path = .ok (some file)) :
    There context.host context.tree file := by
  obtain ⟨place, located, resolved⟩ := bind_eq_ok.mp resolved
  split at resolved
  · next found =>
    cases resolved
    obtain ⟨_, rfl⟩ := Host.locate_eq_ok.mp located
    exact there_canonical found
  · obtain ⟨unitPath, _, resolved⟩ := bind_eq_ok.mp resolved
    obtain ⟨markers, _, same⟩ := bind_eq_ok.mp resolved
    obtain ⟨marker, _, marked⟩ := List.exists_of_findSome?_eq_some (Except.ok.inj same)
    exact there_of_markedFile marked

end Resolving

section Analysing

abbrev symbols (context : Context) : SymbolTable := context.builder.frontend.symbols context.unit

/-- A declaration that is analysed: its symbol is known, and so is the file that its path stands for. -/
def Analysed (context : Context) (declaration : TypeDeclaration) (ref : TypeRef) (file : String) : Prop :=
  context.builder.frontend.symbolOf context.unit declaration = .ok (some ref)
    ∧ context.StandsFor declaration.file file

/-- A type declared in a file depends on another file: it refers to a type from the sources whose
definition is declared there. -/
def DependsOn (context : Context) (ref : TypeRef) (file dependency : String) : Prop :=
  dependency ≠ file ∧ ∃ target path, context.symbols.Refers ref target
    ∧ context.symbols.DeclaredIn target path ∧ context.resolve path = .ok (some dependency)

/-- Each type that a declared type refers to can say whether it comes from the sources. -/
def Answerable (context : Context) (ref : TypeRef) : Prop :=
  ∀ target, context.symbols.Refers ref target →
    ∃ external, context.symbols.externality target = .ok external

def Reports (context : Context) (declaration : TypeDeclaration) (result : FileDependencies) : Prop :=
  ∃ ref, context.Analysed declaration ref result.file ∧ context.Answerable ref
    ∧ ∀ dependency, dependency ∈ result.dependencies ↔ context.DependsOn ref result.file dependency

theorem analysed_unique {declaration : TypeDeclaration} {ref other : TypeRef} {file otherFile : String}
    (analysed : context.Analysed declaration ref file) (also : context.Analysed declaration other otherFile) :
    ref = other ∧ file = otherFile := by
  obtain ⟨known, path, named, resolved⟩ := analysed
  obtain ⟨otherKnown, otherPath, otherNamed, otherResolved⟩ := also
  cases known.symm.trans otherKnown
  cases named.symm.trans otherNamed
  cases resolved.symm.trans otherResolved
  exact ⟨rfl, rfl⟩

theorem standsFor_reported {reported : List Document} {ref : TypeRef}
    (members : ∀ path, .text path ∈ reported ↔
      ∃ target, context.symbols.Refers ref target ∧ context.symbols.DeclaredIn target path)
    {dependency : String} :
    (∃ value ∈ reported, context.StandsFor value dependency) ↔ ∃ target path,
      context.symbols.Refers ref target ∧ context.symbols.DeclaredIn target path
        ∧ context.resolve path = .ok (some dependency) := by
  constructor
  · rintro ⟨_, listed, path, rfl, resolved⟩
    obtain ⟨target, refers, declared⟩ := (members path).mp listed
    exact ⟨target, path, refers, declared, resolved⟩
  · rintro ⟨target, path, refers, declared, resolved⟩
    exact ⟨.text path, (members path).mpr ⟨target, refers, declared⟩, path, rfl, resolved⟩

/-- A result is what a declaration gives: its file, with what the reported paths of its symbol stand for. -/
def Gives (context : Context) (declaration : TypeDeclaration) (result : FileDependencies) : Prop :=
  ∃ ref reported, context.Analysed declaration ref result.file ∧ context.symbols.dependencies ref = .ok reported
    ∧ ∀ dependency, dependency ∈ result.dependencies ↔
      dependency ≠ result.file ∧ ∃ value ∈ reported, context.StandsFor value dependency

theorem reports_of_gives (typed : context.symbols.WellTyped) (distinct : context.symbols.DistinctIds)
    {declaration : TypeDeclaration} {result : FileDependencies} (gives : context.Gives declaration result) :
    context.Reports declaration result := by
  obtain ⟨ref, reported, analysed, walked, members⟩ := gives
  obtain ⟨exactly, found⟩ := SymbolTable.dependencies_spec typed distinct ref
  obtain ⟨_, paths⟩ := found reported walked
  refine ⟨ref, analysed, exactly.mp ⟨reported, walked⟩, fun dependency => ?_⟩
  rw [members, standsFor_reported paths]
  rfl

theorem analyzeDeclaration_eq_ok {cache next : PathCache} (sound : context.Remembers cache) {declaration : TypeDeclaration}
    {result : Option FileDependencies}
    (analysed : context.analyzeDeclaration cache declaration = .ok (result, next)) :
    context.Remembers next ∧ (∀ given, result = some given → context.Gives declaration given)
      ∧ (result = none → ∀ ref file, ¬ context.Analysed declaration ref file) := by
  obtain ⟨symbol, known, analysed⟩ := bind_eq_ok.mp analysed
  cases symbol with
  | none =>
    cases analysed
    refine ⟨sound, fun _ none => (nomatch none), fun _ ref file given => ?_⟩
    exact nomatch known.symm.trans given.1
  | some ref =>
    obtain ⟨⟨source, middle⟩, resolved, analysed⟩ := bind_eq_ok.mp analysed
    obtain ⟨kept, stands⟩ := resolveValue_eq_ok sound resolved
    cases source with
    | none =>
      cases analysed
      refine ⟨kept, fun _ none => (nomatch none), fun _ other file given => ?_⟩
      exact nomatch (stands file).mpr given.2
    | some file =>
      obtain ⟨reported, walked, analysed⟩ := bind_eq_ok.mp analysed
      obtain ⟨⟨dependencies, last⟩, all, same⟩ := bind_eq_ok.mp analysed
      cases same
      obtain ⟨final, members⟩ := resolveAll_eq_ok kept all
      refine ⟨final, fun given same => ?_, fun none => (nomatch none)⟩
      cases same
      exact ⟨ref, reported, ⟨known, (stands file).mp rfl⟩, walked, members⟩

def Walks (context : Context) (ref : TypeRef) : Prop :=
  ∃ reported, context.symbols.dependencies ref = .ok reported
    ∧ ∀ value ∈ reported, ∃ path, value = .text path ∧ path ≠ ""

theorem walks_of_answerable (typed : context.symbols.WellTyped) (distinct : context.symbols.DistinctIds) {ref : TypeRef}
    (answers : context.Answerable ref) : context.Walks ref := by
  obtain ⟨exactly, found⟩ := SymbolTable.dependencies_spec typed distinct ref
  obtain ⟨reported, walked⟩ := exactly.mpr answers
  obtain ⟨texts, paths⟩ := found reported walked
  refine ⟨reported, walked, fun value listed => ?_⟩
  obtain ⟨path, rfl⟩ := texts value listed
  obtain ⟨_, _, _, _, _, _, present⟩ := (paths path).mp listed
  exact ⟨path, rfl, present⟩

theorem analyzeDeclaration_isOk (resolves : ∀ path, path ≠ "" → ∃ found, context.resolve path = .ok found)
    {cache : PathCache} (sound : context.Remembers cache) {declaration : TypeDeclaration}
    (known : ∃ symbol, context.builder.frontend.symbolOf context.unit declaration = .ok symbol)
    (named : ∃ path, declaration.file = .text path ∧ path ≠ "")
    (walks : ∀ ref file, context.Analysed declaration ref file → context.Walks ref) :
    ∃ result next, context.analyzeDeclaration cache declaration = .ok (result, next) := by
  obtain ⟨symbol, known⟩ := known
  obtain ⟨path, named, present⟩ := named
  obtain ⟨source, resolved⟩ := resolves path present
  obtain ⟨middle, first⟩ := resolveCached_isOk sound resolved
  have kept := (resolveCached_eq_ok sound first).2
  have opened : context.resolveValue cache declaration.file = .ok (source, middle) := by
    rw [named]
    exact first
  rw [analyzeDeclaration, known]
  cases symbol with
  | none => exact ⟨none, cache, rfl⟩
  | some ref =>
    show ∃ result next, (context.resolveValue cache declaration.file >>= _) = .ok (result, next)
    rw [opened]
    cases source with
    | none => exact ⟨none, middle, rfl⟩
    | some file =>
      obtain ⟨reported, walked, paths⟩ := walks ref file ⟨known, path, named, resolved⟩
      have each : ∀ value ∈ reported, ∃ path found, value = .text path ∧ context.resolve path = .ok found := by
        intro value listed
        obtain ⟨path, rfl, present⟩ := paths value listed
        obtain ⟨found, resolved⟩ := resolves path present
        exact ⟨path, found, rfl, resolved⟩
      obtain ⟨dependencies, last, all⟩ := @resolveAll_isOk _ file reported middle kept each
      show ∃ result next, (context.symbols.dependencies ref >>= _) = .ok (result, next)
      rw [walked]
      show ∃ result next, (context.resolveAll file middle reported >>= _) = .ok (result, next)
      rw [all]
      exact ⟨_, last, rfl⟩

end Analysing

section Running

def Declares (context : Context) (files : List String) (declaration : TypeDeclaration) : Prop :=
  ∃ file ∈ files, file ≠ "" ∧ ∃ declarations,
    context.builder.frontend.declarations context.unit file = .ok declarations ∧ declaration ∈ declarations

/-- The results so far are those of the declarations met so far, each in the given relation to one of them. -/
structure Covers (context : Context) (told : TypeDeclaration → FileDependencies → Prop) (met : TypeDeclaration → Prop)
    (progress : Progress) : Prop where
  remembers : context.Remembers progress.cache
  sound : ∀ result ∈ progress.results, ∃ declaration, met declaration ∧ told declaration result
  complete : ∀ declaration, met declaration → ∀ ref file, context.Analysed declaration ref file →
    ∃ result ∈ progress.results, result.file = file ∧ told declaration result

theorem covers_congr {told : TypeDeclaration → FileDependencies → Prop} {met other : TypeDeclaration → Prop}
    {progress : Progress} (same : ∀ declaration, met declaration ↔ other declaration)
    (covers : context.Covers told met progress) : context.Covers told other progress := by
  have equal : met = other := funext fun declaration => propext (same declaration)
  exact equal ▸ covers

theorem covers_addDeclaration {met : TypeDeclaration → Prop} {progress next : Progress} (covers : context.Covers context.Gives met progress)
    {declaration : TypeDeclaration} (added : context.addDeclaration progress declaration = .ok next) :
    context.Covers context.Gives (fun other => met other ∨ other = declaration) next := by
  obtain ⟨⟨result, cache⟩, analysed, added⟩ := bind_eq_ok.mp added
  obtain ⟨kept, reports, skipped⟩ := analyzeDeclaration_eq_ok covers.remembers analysed
  cases result with
  | none =>
    cases added
    refine ⟨kept, ?_, ?_⟩
    · intro result listed
      obtain ⟨other, old, reported⟩ := covers.sound result listed
      exact ⟨other, Or.inl old, reported⟩
    · rintro other (old | rfl) ref file given
      · exact covers.complete other old ref file given
      · exact absurd given (skipped rfl ref file)
  | some result =>
    cases added
    have own := reports result rfl
    refine ⟨kept, ?_, ?_⟩
    · intro given listed
      rcases List.mem_append.mp listed with old | new
      · obtain ⟨other, before, reported⟩ := covers.sound given old
        exact ⟨other, Or.inl before, reported⟩
      · cases List.mem_singleton.mp new
        exact ⟨declaration, Or.inr rfl, own⟩
    · rintro other (old | rfl) ref file given
      · obtain ⟨found, listed, rest⟩ := covers.complete other old ref file given
        exact ⟨found, List.mem_append_left _ listed, rest⟩
      · obtain ⟨ownRef, _, ownAnalysed, _⟩ := own
        exact ⟨result, List.mem_append_right _ List.mem_cons_self, (analysed_unique given ownAnalysed).2.symm,
          reports result rfl⟩

theorem covers_foldlM {declarations : List TypeDeclaration} {met : TypeDeclaration → Prop} {progress next : Progress}
    (covers : context.Covers context.Gives met progress)
    (ran : declarations.foldlM context.addDeclaration progress = .ok next) :
    context.Covers context.Gives (fun other => met other ∨ other ∈ declarations) next := by
  induction declarations generalizing met progress with
  | nil =>
    cases ran
    exact covers_congr (by simp) covers
  | cons declaration rest ih =>
    rw [List.foldlM_cons] at ran
    obtain ⟨middle, first, later⟩ := bind_eq_ok.mp ran
    refine covers_congr (fun other => ?_) (ih (covers_addDeclaration covers first) later)
    rw [List.mem_cons, or_assoc]

theorem covers_addFile {met : TypeDeclaration → Prop} {progress next : Progress} (covers : context.Covers context.Gives met progress)
    {file : String} (added : context.addFile progress file = .ok next) :
    context.Covers context.Gives (fun other => met other ∨ context.Declares [file] other) next := by
  unfold addFile at added
  split at added
  next nameless =>
    cases added
    refine covers_congr (fun other => ?_) covers
    simp [Declares, nameless]
  next named =>
    obtain ⟨declarations, listed, ran⟩ := bind_eq_ok.mp added
    refine covers_congr (fun other => ?_) (covers_foldlM covers ran)
    simp [Declares, named, listed]

theorem gives_analyze {files : List String} {progress : Progress} (ran : context.analyze files = .ok progress) :
    context.Covers context.Gives (context.Declares files) progress := by
  -- The files are taken one by one, so the run is proved from any progress made before.
  have run : ∀ (files : List String) (met : TypeDeclaration → Prop) (start : Progress),
      context.Covers context.Gives met start → (files.foldlM context.addFile start = .ok progress) →
      context.Covers context.Gives (fun other => met other ∨ context.Declares files other) progress := by
    intro files
    induction files with
    | nil =>
      intro met start covers ran
      cases ran
      exact covers_congr (by simp [Declares]) covers
    | cons file rest ih =>
      intro met start covers ran
      rw [List.foldlM_cons] at ran
      obtain ⟨middle, first, later⟩ := bind_eq_ok.mp ran
      refine covers_congr (fun other => ?_) (ih _ middle (covers_addFile covers first) later)
      rw [or_assoc]
      simp [Declares]
  have start : context.Covers context.Gives (fun _ => False) {} := ⟨remembers_nil, by simp, by simp⟩
  exact covers_congr (by simp) (run files _ _ start ran)

theorem covers_analyze (typed : context.symbols.WellTyped) (distinct : context.symbols.DistinctIds)
    {files : List String} {progress : Progress} (ran : context.analyze files = .ok progress) :
    context.Covers context.Reports (context.Declares files) progress := by
  have covers := gives_analyze ran
  refine ⟨covers.remembers, fun result listed => ?_, fun declaration declared ref file analysed => ?_⟩
  · obtain ⟨declaration, declared, gives⟩ := covers.sound result listed
    exact ⟨declaration, declared, reports_of_gives typed distinct gives⟩
  · obtain ⟨result, listed, same, gives⟩ := covers.complete declaration declared ref file analysed
    exact ⟨result, listed, same, reports_of_gives typed distinct gives⟩

/-- The frontend answers what it is asked about a unit, and declarations name their files. -/
structure Answers (frontend : Frontend) (unit : CompilationUnit) (files : List String) : Prop where
  unitPath : unit.path ≠ ""
  sources : frontend.sourceFiles unit = .ok files
  markup : ∃ found, frontend.markupFiles unit = .ok found
  markers : ∀ path, ∃ found, frontend.markers unit path = .ok found
  declarations : ∀ file ∈ files, file ≠ "" → ∃ found, frontend.declarations unit file = .ok found
  symbols : ∀ file ∈ files, ∀ found, frontend.declarations unit file = .ok found → ∀ declaration ∈ found,
    (∃ symbol, frontend.symbolOf unit declaration = .ok symbol)
      ∧ ∃ path, declaration.file = .text path ∧ path ≠ ""

/-- What a run needs of a frontend to come to an end: it knows its declarations, and the markers of any path that names
something. -/
structure Serves (frontend : Frontend) (unit : CompilationUnit) (files : List String) : Prop where
  unitPath : unit.path ≠ ""
  markers : ∀ path, path ≠ "" → ∃ found, frontend.markers unit path = .ok found
  declarations : ∀ file ∈ files, file ≠ "" → ∃ found, frontend.declarations unit file = .ok found
  symbols : ∀ file ∈ files, ∀ found, frontend.declarations unit file = .ok found → ∀ declaration ∈ found,
    (∃ symbol, frontend.symbolOf unit declaration = .ok symbol)
      ∧ ∃ path, declaration.file = .text path ∧ path ≠ ""

theorem Answers.serves {frontend : Frontend} {unit : CompilationUnit} {files : List String}
    (answers : Answers frontend unit files) : Serves frontend unit files :=
  ⟨answers.unitPath, fun path _ => answers.markers path, answers.declarations, answers.symbols⟩

theorem resolve_isOk (placed : context.unit.path ≠ "") {path : String} (present : path ≠ "")
    (answered : ∃ markers, context.builder.frontend.markers context.unit path = .ok markers) :
    ∃ found, context.resolve path = .ok found := by
  have located : context.host.locate path = .ok (context.host.canonical path) :=
    Host.locate_eq_ok.mpr ⟨present, rfl⟩
  have unitLocated : context.host.locate context.unit.path = .ok (context.host.canonical context.unit.path) :=
    Host.locate_eq_ok.mpr ⟨placed, rfl⟩
  obtain ⟨markers, given⟩ := answered
  rw [resolve, located]
  show ∃ found, (if context.tree.isFile _ = true then pure (some _) else context.markupSource path) = .ok found
  split
  next => exact ⟨_, rfl⟩
  next =>
    rw [markupSource, unitLocated, given]
    exact ⟨_, rfl⟩

theorem addDeclaration_isOk (resolves : ∀ path, path ≠ "" → ∃ found, context.resolve path = .ok found)
    {declaration : TypeDeclaration}
    (known : ∃ symbol, context.builder.frontend.symbolOf context.unit declaration = .ok symbol)
    (named : ∃ path, declaration.file = .text path ∧ path ≠ "")
    (walks : ∀ ref file, context.Analysed declaration ref file → context.Walks ref)
    (progress : Progress) (sound : context.Remembers progress.cache) :
    ∃ next, context.addDeclaration progress declaration = .ok next ∧ context.Remembers next.cache := by
  obtain ⟨result, cache, analysed⟩ := analyzeDeclaration_isOk resolves sound known named walks
  obtain ⟨kept, _⟩ := analyzeDeclaration_eq_ok sound analysed
  rw [addDeclaration, analysed]
  cases result with
  | none => exact ⟨_, rfl, kept⟩
  | some result => exact ⟨_, rfl, kept⟩

theorem analyze_isOk {files : List String} (serves : Serves context.builder.frontend context.unit files)
    (walks : ∀ declaration, context.Declares files declaration →
      ∀ ref file, context.Analysed declaration ref file → context.Walks ref) :
    ∃ progress, context.analyze files = .ok progress := by
  have resolves : ∀ path, path ≠ "" → ∃ found, context.resolve path = .ok found :=
    fun path present => resolve_isOk serves.unitPath present (serves.markers path present)
  have each : ∀ file ∈ files, ∀ progress : Progress, context.Remembers progress.cache →
      ∃ next, context.addFile progress file = .ok next ∧ context.Remembers next.cache := by
    intro file listed progress sound
    unfold addFile
    split
    next => exact ⟨progress, rfl, sound⟩
    next present =>
      obtain ⟨declarations, given⟩ := serves.declarations file listed present
      rw [given]
      apply foldlM_isOk (fun progress : Progress => context.Remembers progress.cache) _ sound
      intro declaration member state kept
      obtain ⟨known, named⟩ := serves.symbols file listed declarations given declaration member
      exact addDeclaration_isOk resolves known named
        (walks declaration ⟨file, listed, present, declarations, given, member⟩) state kept
  have empty : context.Remembers ({} : Progress).cache := remembers_nil
  obtain ⟨progress, ran, _⟩ :=
    foldlM_isOk (fun progress : Progress => context.Remembers progress.cache) each empty
  exact ⟨progress, ran⟩

/-- A run comes to results exactly when every type that an analysed declaration refers to can say whether
it comes from the sources. -/
theorem analyze_isOk_iff (typed : context.symbols.WellTyped) (distinct : context.symbols.DistinctIds)
    {files : List String} (answers : Answers context.builder.frontend context.unit files) :
    (∃ progress, context.analyze files = .ok progress) ↔ ∀ declaration, context.Declares files declaration →
      ∀ ref file, context.Analysed declaration ref file → context.Answerable ref := by
  constructor
  · rintro ⟨progress, ran⟩ declaration declared ref file analysed
    obtain ⟨result, _, same, reported, also, answerable, _⟩ :=
      (covers_analyze typed distinct ran).complete declaration declared ref file analysed
    rw [(analysed_unique analysed also).1]
    exact answerable
  · intro answerable
    exact analyze_isOk answers.serves fun declaration declared ref file analysed =>
      walks_of_answerable typed distinct (answerable declaration declared ref file analysed)

end Running

section Joining

theorem ofDirect_reported {results : List FileDependencies}
    (reported : ∀ result ∈ results, ∃ declaration, context.Reports declaration result) :
    Graph.ofDirect context.host results =
      .ok (Graph.ofRows (results.map fun result => (result.file, result.dependencies))) := by
  have rows : results.mapM (Graph.canonicalRow context.host) =
      .ok (results.map fun result => (result.file, result.dependencies)) := by
    apply mapM_of_each
    intro result listed
    obtain ⟨declaration, ref, ⟨_, path, _, resolved⟩, _, members⟩ := reported result listed
    have own := (there_of_resolve resolved).1
    have others : result.dependencies.mapM context.host.locate = .ok (result.dependencies.map id) := by
      apply mapM_of_each
      intro dependency member
      obtain ⟨_, _, _, _, _, resolvedTo⟩ := (members dependency).mp member
      exact (there_of_resolve resolvedTo).1
    rw [Graph.canonicalRow, own, others, List.map_id]
    rfl
  rw [Graph.ofDirect, rows]
  rfl

/-- A graph shows the references of the declared types, from file to file. -/
structure Depicts (context : Context) (files : List String) (graph : Graph) : Prop where
  edge : ∀ file dependency, dependency ∈ graph.upstreamOf file ↔ ∃ declaration ref,
    context.Declares files declaration ∧ context.Analysed declaration ref file
      ∧ context.DependsOn ref file dependency
  node : ∀ file, file ∈ graph.upstream.keys ↔ ∃ declaration ref owner, context.Declares files declaration
    ∧ context.Analysed declaration ref owner ∧ (file = owner ∨ context.DependsOn ref owner file)
  coherent : graph.Coherent

theorem depicts_ofRows {files : List String} {progress : Progress}
    (covers : context.Covers context.Reports (context.Declares files) progress) :
    context.Depicts files
      (Graph.ofRows (progress.results.map fun result => (result.file, result.dependencies))) := by
  refine ⟨fun file dependency => ?_, fun file => ?_, Graph.coherent_ofRows _⟩
  · rw [Graph.upstreamOf, Graph.mem_get_ofRows]
    constructor
    · rintro ⟨_, listed, rfl, inside, _⟩
      obtain ⟨result, given, rfl⟩ := List.mem_map.mp listed
      obtain ⟨declaration, declared, ref, analysed, _, members⟩ := covers.sound result given
      exact ⟨declaration, ref, declared, analysed, (members dependency).mp inside⟩
    · rintro ⟨declaration, ref, declared, analysed, depends⟩
      obtain ⟨result, given, rfl, other, also, _, members⟩ :=
        covers.complete declaration declared ref file analysed
      cases (analysed_unique analysed also).1
      exact ⟨_, List.mem_map_of_mem given, rfl, (members dependency).mpr depends, depends.1⟩
  · rw [Graph.mem_keys_ofRows]
    constructor
    · rintro ⟨_, listed, mentioned⟩
      obtain ⟨result, given, rfl⟩ := List.mem_map.mp listed
      obtain ⟨declaration, declared, ref, analysed, _, members⟩ := covers.sound result given
      exact ⟨declaration, ref, result.file, declared, analysed, mentioned.imp id (members file).mp⟩
    · rintro ⟨declaration, ref, owner, declared, analysed, mentioned⟩
      obtain ⟨result, given, rfl, other, also, _, members⟩ :=
        covers.complete declaration declared ref owner analysed
      cases (analysed_unique analysed also).1
      exact ⟨_, List.mem_map_of_mem given, mentioned.imp id (members file).mpr⟩

end Joining

end DeclGraph.Builder.Context

namespace DeclGraph.Builder

open Context

abbrev inUnit (builder : Builder) (host : Host) (tree : FileTree) (unit : CompilationUnit) (markup : FileSet) :
    Context := ⟨builder, host, tree, unit, markup⟩

def resultsOf (builder : Builder) (host : Host) (tree : FileTree) (unit : CompilationUnit) :
    Except Fault (List FileDependencies) := do
  let markup ← builder.knownMarkup host tree unit
  let files ← builder.frontend.sourceFiles unit
  let progress ← Context.analyze ⟨builder, host, tree, unit, markup⟩ files
  pure progress.results

/-- An analysis notes a call and writes to the log, and leaves everything else around. -/
theorem directDependencies_outcome (builder : Builder) (host : Host) (thread : String) (unit : CompilationUnit)
    (world : World) : ∃ calls journal, (builder.directDependencies host thread unit).outcome world =
      (builder.resultsOf host world.tree unit, { world with calls, journal }) := by
  simp only [directDependencies, Frontend.listNoted, resultsOf, Run.outcome_bind, Run.outcome_tree,
    Run.outcome_ofExcept, Run.outcome_note, Run.outcome_record, Run.outcome_pure]
  cases builder.knownMarkup host world.tree unit with
  | error fault => exact ⟨_, _, rfl⟩
  | ok markup =>
    cases builder.frontend.sourceFiles unit with
    | error fault => exact ⟨_, _, rfl⟩
    | ok files =>
      simp only [bind, Except.bind]
      cases Context.analyze ⟨builder, host, world.tree, unit, markup⟩ files with
      | error fault => exact ⟨_, _, rfl⟩
      | ok progress => exact ⟨_, _, rfl⟩

theorem directDependencies_result (builder : Builder) (host : Host) (thread : String) (unit : CompilationUnit)
    (world : World) :
    ((builder.directDependencies host thread unit).outcome world).1 = (do
      let markup ← builder.knownMarkup host world.tree unit
      let files ← builder.frontend.sourceFiles unit
      let progress ← (builder.inUnit host world.tree unit markup).analyze files
      pure progress.results) := by
  obtain ⟨calls, journal, outcome⟩ := directDependencies_outcome builder host thread unit world
  rw [outcome, resultsOf]

theorem directDependencies_isOk_iff (builder : Builder) (host : Host) (thread : String) {unit : CompilationUnit} {world : World}
    {files : List String} {markup : FileSet} (known : builder.knownMarkup host world.tree unit = .ok markup)
    (sources : builder.frontend.sourceFiles unit = .ok files) :
    (∃ results after, (builder.directDependencies host thread unit).outcome world = (.ok results, after)) ↔
      ∃ progress, (builder.inUnit host world.tree unit markup).analyze files = .ok progress := by
  have result := directDependencies_result builder host thread unit world
  rw [known, sources] at result
  constructor
  · rintro ⟨results, after, ran⟩
    rw [ran] at result
    obtain ⟨_, same, result⟩ := bind_eq_ok.mp result.symm
    cases same
    obtain ⟨_, same, result⟩ := bind_eq_ok.mp result
    cases same
    obtain ⟨progress, analysed, _⟩ := bind_eq_ok.mp result
    exact ⟨progress, analysed⟩
  · rintro ⟨progress, analysed⟩
    refine ⟨progress.results, ((builder.directDependencies host thread unit).outcome world).2, ?_⟩
    apply Prod.ext
    · rw [result]
      show (analyze _ files >>= _) = _
      rw [analysed]
      rfl
    · rfl

/-- The results of a unit and the graph they are joined to say what the declared types refer to, in every
table of symbols that do not share ids, cyclic or not: each analysed declaration gives one result, with the
files that declare the types it refers to, and the edges of the graph are these references from file to
file. A frontend that answers is given results unless some type that is referred to cannot say whether it
comes from the sources. -/
theorem direct_dependencies_are_references (builder : Builder) (host : Host) (thread : String)
    (unit : CompilationUnit) (world : World) (typed : (builder.frontend.symbols unit).WellTyped)
    (distinct : (builder.frontend.symbols unit).DistinctIds) :
    (∀ results after, (builder.directDependencies host thread unit).outcome world = (.ok results, after) →
      ∃ files markup graph, builder.frontend.sourceFiles unit = .ok files
        ∧ builder.knownMarkup host world.tree unit = .ok markup ∧ Graph.ofDirect host results = .ok graph
        ∧ (∀ result ∈ results, ∃ declaration,
          (builder.inUnit host world.tree unit markup).Declares files declaration
            ∧ (builder.inUnit host world.tree unit markup).Reports declaration result)
        ∧ (∀ declaration ref file, (builder.inUnit host world.tree unit markup).Declares files declaration →
          (builder.inUnit host world.tree unit markup).Analysed declaration ref file →
          ∃ result ∈ results, (builder.inUnit host world.tree unit markup).Reports declaration result)
        ∧ (builder.inUnit host world.tree unit markup).Depicts files graph)
      ∧ ∀ files markup, Answers builder.frontend unit files →
        builder.knownMarkup host world.tree unit = .ok markup →
        ((∃ results after, (builder.directDependencies host thread unit).outcome world = (.ok results, after)) ↔
          ∀ declaration ref file, (builder.inUnit host world.tree unit markup).Declares files declaration →
            (builder.inUnit host world.tree unit markup).Analysed declaration ref file →
            (builder.inUnit host world.tree unit markup).Answerable ref) := by
  constructor
  · intro results after ran
    have result := directDependencies_result builder host thread unit world
    rw [ran] at result
    obtain ⟨markup, known, result⟩ := bind_eq_ok.mp result.symm
    obtain ⟨files, sources, result⟩ := bind_eq_ok.mp result
    obtain ⟨progress, analysed, same⟩ := bind_eq_ok.mp result
    cases same
    have covers := covers_analyze typed distinct analysed
    have reported : ∀ given ∈ progress.results,
        ∃ declaration, (builder.inUnit host world.tree unit markup).Reports declaration given := by
      intro given listed
      obtain ⟨declaration, _, reports⟩ := covers.sound given listed
      exact ⟨declaration, reports⟩
    refine ⟨files, markup, _, sources, known, ofDirect_reported reported, covers.sound, ?_, depicts_ofRows covers⟩
    intro declaration ref file declared given
    obtain ⟨result, listed, _, reports⟩ := covers.complete declaration declared ref file given
    exact ⟨result, listed, reports⟩
  · intro files markup answers known
    rw [directDependencies_isOk_iff builder host thread known answers.sources, analyze_isOk_iff typed distinct answers]
    constructor
    · exact fun each declaration ref file declared => each declaration declared ref file
    · exact fun each declaration declared ref file => each declaration ref file declared

section Sample

/-- A type with a nested type, a field and a method, and its base type, which refer to each other in
circles: types through their bases, methods through a lambda and a local function. -/
def sampleTable : SymbolTable where
  types := #[
    { id := .text "A", name := .text "A", file := .text "a", base := some 1,
      members := [some (.nested 2), some (.plain ⟨.text "A.f", .text "f", .null, .field (some 3), []⟩),
        some (.method 0)] },
    { id := .text "B", name := .text "B", file := .text "b", base := some 0 },
    { id := .text "A.N", name := .text "N", file := .text "a", base := some 2 },
    { id := .text "B[]", name := .text "B[]", kind := .array, element := some 1 }]
  methods := #[
    { id := .text "A.m", name := .text "m", returnType := some 3,
      body := some [⟨.text "lambda", some 0, some 1⟩] },
    { id := .text "A.m.l", name := .text "l", body := some [⟨.text "local_function", some 1, some 0⟩] }]

def sampleFrontend : Frontend where
  name := "sample"
  openUnit _ := throw .wrongShape
  sourceFiles _ := .ok ["a"]
  declarations _ _ := .ok [⟨.text "./a", .text "A", .text "A"⟩]
  symbols _ := sampleTable
  symbolOf _ _ := .ok (some 0)
  markers _ _ := .ok []
  markupFiles _ := .ok []

def sampleUnit : CompilationUnit := ⟨"/w/u", "u", default⟩

theorem wellTyped_sampleTable : sampleTable.WellTyped where
  typeIds := by decide
  methodIds := by decide
  memberIds := by simp [sampleTable, Document.text?]
  files := by decide
  typeParameters := by decide
  methodParameters := by decide
  kinds := by decide

theorem distinctIds_sampleTable : sampleTable.DistinctIds where
  types := by decide
  methods := by decide
  members := by
    simp [sampleTable, SymbolTable.Lists]
  apart := by
    intro symbol ref method listed inside found same
    simp [sampleTable, SymbolTable.Lists] at listed inside
    subst listed inside
    simp [sampleTable] at found
    subst found
    revert same
    decide

theorem answers_sampleFrontend : Answers sampleFrontend sampleUnit ["a"] where
  unitPath := by decide
  sources := rfl
  markup := ⟨[], rfl⟩
  markers _ := ⟨[], rfl⟩
  declarations _ _ _ := ⟨_, rfl⟩
  symbols := by
    intro file _ found given declaration member
    cases given
    cases List.mem_singleton.mp member
    exact ⟨⟨some 0, rfl⟩, "./a", rfl, by decide⟩

theorem externality_sampleTable (target : TypeRef) :
    ∃ external, sampleTable.externality target = .ok external := by
  cases found : sampleTable.types[target]? with
  | none => exact ⟨_, SymbolTable.externality_of_missing found⟩
  | some symbol =>
    have bound : target < 4 := (Array.getElem?_eq_some_iff.mp found).1
    have each : ∀ target < 4, (sampleTable.externality target).toOption.isSome = true := by decide
    obtain ⟨external, given⟩ := Option.isSome_iff_exists.mp (each target bound)
    exact ⟨external, eq_ok_of_toOption given⟩

theorem direct_dependencies_of_circles :
    ∃ results after graph,
      (directDependencies ⟨sampleFrontend, [], none⟩ Saved.sampleHost "t" sampleUnit).outcome
        Saved.sampleWorld = (.ok results, after)
      ∧ Graph.ofDirect Saved.sampleHost results = .ok graph ∧ "/w/b" ∈ graph.upstreamOf "/w/a" := by
  obtain ⟨exactly, succeeds⟩ := direct_dependencies_are_references ⟨sampleFrontend, [], none⟩ Saved.sampleHost "t"
    sampleUnit Saved.sampleWorld wellTyped_sampleTable distinctIds_sampleTable
  obtain ⟨results, after, ran⟩ := (succeeds ["a"] [] answers_sampleFrontend rfl).mpr
    fun _ _ _ _ _ target _ => externality_sampleTable target
  obtain ⟨files, markup, graph, sources, known, joined, _, _, depicts⟩ := exactly results after ran
  cases sources
  cases known
  refine ⟨results, after, graph, ran, joined, (depicts.edge "/w/a" "/w/b").mpr ?_⟩
  refine ⟨⟨.text "./a", .text "A", .text "A"⟩, 0, ⟨"a", by simp, by decide, _, rfl, by simp⟩, ⟨rfl, "./a", rfl, ?_⟩, ?_⟩
  · exact eq_ok_of_toOption (by decide +kernel)
  · refine ⟨by decide, 1, "b", .head .self rfl (.base rfl), ⟨.bool false, rfl, rfl, rfl, by decide⟩, ?_⟩
    exact eq_ok_of_toOption (by decide +kernel)

end Sample

end DeclGraph.Builder
