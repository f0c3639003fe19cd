import DeclGraph.Proofs.BuiltGraphs

/-!
What a build would give if it remembered no path. Each reported path is looked up where it is needed, and what the
declarations give is put together at the end. A build that remembers paths ends alike, with the same results or the
same failure.
-/

namespace DeclGraph.Builder

/-- Two computations end alike: with the same failure, or with related values. -/
inductive Alike {γ α : Type} (related : γ → α → Prop) : Except Fault γ → Except Fault α → Prop
  | failed (fault : Fault) : Alike related (.error fault) (.error fault)
  | found {state : γ} {value : α} (same : related state value) : Alike related (.ok state) (.ok value)

section Ending

variable {γ δ α β : Type} {related : γ → α → Prop} {other : δ → β → Prop}

theorem alike_bind {first : Except Fault γ} {fresh : Except Fault α} {next : γ → Except Fault δ}
    {freshNext : α → Except Fault β} (head : Alike related first fresh)
    (tail : ∀ state value, related state value → Alike other (next state) (freshNext value)) :
    Alike other (first >>= next) (fresh >>= freshNext) := by
  cases head with
  | failed fault => exact .failed fault
  | found same => exact tail _ _ same

theorem alike_bind_same {first : Except Fault α} {next : α → Except Fault δ} {freshNext : α → Except Fault β}
    (tail : ∀ value, Alike other (next value) (freshNext value)) : Alike other (first >>= next) (first >>= freshNext) := by
  cases first with
  | error fault => exact .failed fault
  | ok value => exact tail value

theorem alike_map {weaker : γ → β → Prop} {first : Except Fault γ} {fresh : Except Fault α} (make : α → β)
    (alike : Alike related first fresh) (implied : ∀ state value, related state value → weaker state (make value)) :
    Alike weaker first (fresh >>= fun value => pure (make value)) := by
  cases alike with
  | failed fault => exact .failed fault
  | found same => exact .found (implied _ _ same)

theorem eq_of_alike {first fresh : Except Fault α} (alike : Alike Eq first fresh) : first = fresh := by
  cases alike with
  | failed fault => rfl
  | found same => exact congrArg Except.ok same

end Ending

namespace Context

variable {context : Context}

def resolveAfresh (context : Context) (value : Document) : Except Fault (Option String) :=
  (context.resolveValue [] value).map (·.1)

def others (file : String) (found : List (Option String)) : List String :=
  (found.filterMap id).filter (· ≠ file)

/-- The direct dependencies of one declaration, with nothing remembered from others. -/
def analyzeAfresh (context : Context) (declaration : TypeDeclaration) : Except Fault (Option FileDependencies) := do
  match ← context.builder.frontend.symbolOf context.unit declaration with
  | none => pure none
  | some ref =>
    match ← context.resolveAfresh declaration.file with
    | none => pure none
    | some file =>
      let reported ← context.symbols.dependencies ref
      let found ← reported.mapM context.resolveAfresh
      pure (some ⟨file, FileSet.ofList (others file found), ((context.symbol? ref).map (·.name)).getD .null⟩)

def fileAfresh (context : Context) (file : String) : Except Fault (List (Option FileDependencies)) :=
  if file = "" then pure []
  else do
    let declarations ← context.builder.frontend.declarations context.unit file
    declarations.mapM context.analyzeAfresh

def Kept {α : Type} (context : Context) (state : α × PathCache) (value : α) : Prop :=
  state.1 = value ∧ context.Remembers state.2

theorem resolveAfresh_text (context : Context) (path : String) :
    context.resolveAfresh (.text path) = context.resolve path := by
  show (context.resolve path >>= fun found => pure (found, _)).map _ = context.resolve path
  cases context.resolve path <;> rfl

theorem alike_resolveCached {cache : PathCache} (sound : context.Remembers cache) (path : String) :
    Alike context.Kept (context.resolveCached cache path) (context.resolve path) := by
  unfold resolveCached
  split
  next known looked =>
    rw [sound path known looked]
    exact .found ⟨rfl, sound⟩
  next =>
    cases resolved : context.resolve path with
    | error fault => exact .failed fault
    | ok found => exact .found ⟨rfl, remembers_cons sound resolved⟩

theorem alike_resolveValue {cache : PathCache} (sound : context.Remembers cache) (value : Document) :
    Alike context.Kept (context.resolveValue cache value) (context.resolveAfresh value) := by
  by_cases text : ∃ path, value = .text path
  · obtain ⟨path, rfl⟩ := text
    rw [resolveAfresh_text]
    exact alike_resolveCached sound path
  · obtain ⟨fault, refused⟩ := resolveValue_refused context fun path same => text ⟨path, same⟩
    rw [resolveAfresh, refused cache, refused []]
    exact .failed fault

theorem alike_resolveAll (file : String) {cache : PathCache} (sound : context.Remembers cache) (reported : List Document) :
    Alike (fun state found => state.1 = FileSet.ofList (others file found) ∧ context.Remembers state.2)
      (context.resolveAll file cache reported) (reported.mapM context.resolveAfresh) := by
  induction reported generalizing cache with
  | nil => exact .found ⟨rfl, sound⟩
  | cons value rest ih =>
    rw [resolveAll, List.mapM_cons]
    refine alike_bind (alike_resolveValue sound value) ?_
    rintro ⟨found, middle⟩ _ ⟨rfl, kept⟩
    refine alike_bind (ih kept) ?_
    rintro ⟨files, last⟩ places ⟨rfl, remembered⟩
    cases found with
    | none => exact .found ⟨rfl, remembered⟩
    | some dependency =>
      refine .found ⟨?_, remembered⟩
      by_cases own : dependency = file
      · simp [others, own]
      · simp [others, own, FileSet.insert_ofList]

theorem alike_analyzeDeclaration {cache : PathCache} (sound : context.Remembers cache) (declaration : TypeDeclaration) :
    Alike context.Kept (context.analyzeDeclaration cache declaration) (context.analyzeAfresh declaration) := by
  rw [analyzeDeclaration, analyzeAfresh]
  apply alike_bind_same
  rintro (_ | ref)
  · exact .found ⟨rfl, sound⟩
  · refine alike_bind (alike_resolveValue sound declaration.file) ?_
    rintro ⟨source, middle⟩ _ ⟨rfl, kept⟩
    cases source with
    | none => exact .found ⟨rfl, kept⟩
    | some file =>
      apply alike_bind_same
      intro reported
      refine alike_bind (alike_resolveAll file kept reported) ?_
      rintro ⟨dependencies, last⟩ found ⟨rfl, remembered⟩
      exact .found ⟨rfl, remembered⟩

/-- A run has the results it would have, and what it remembers is right. -/
def Shows (context : Context) (progress : Progress) (results : List FileDependencies) : Prop :=
  progress.results = results ∧ context.Remembers progress.cache

theorem alike_addDeclaration {progress : Progress} {results : List FileDependencies} (shows : context.Shows progress results)
    (declaration : TypeDeclaration) :
    Alike (fun next given => context.Shows next (results ++ given.toList))
      (context.addDeclaration progress declaration) (context.analyzeAfresh declaration) := by
  obtain ⟨rfl, sound⟩ := shows
  rw [← bind_pure (context.analyzeAfresh declaration)]
  refine alike_bind (alike_analyzeDeclaration sound declaration) ?_
  rintro ⟨result, cache⟩ _ ⟨rfl, kept⟩
  cases result with
  | none => exact .found ⟨by simp, kept⟩
  | some result => exact .found ⟨rfl, kept⟩

theorem alike_declarations {progress : Progress} {results : List FileDependencies} (shows : context.Shows progress results)
    (declarations : List TypeDeclaration) :
    Alike (fun next given => context.Shows next (results ++ given.filterMap id))
      (declarations.foldlM context.addDeclaration progress) (declarations.mapM context.analyzeAfresh) := by
  induction declarations generalizing progress results with
  | nil => exact .found ⟨by simpa using shows.1, shows.2⟩
  | cons declaration rest ih =>
    rw [List.foldlM_cons, List.mapM_cons]
    refine alike_bind (alike_addDeclaration shows declaration) ?_
    intro next given step
    refine alike_map _ (ih step) ?_
    intro last later run
    rw [List.append_assoc] at run
    cases given with
    | none => exact run
    | some result => exact run

theorem alike_addFile {progress : Progress} {results : List FileDependencies} (shows : context.Shows progress results)
    (file : String) :
    Alike (fun next given => context.Shows next (results ++ given.filterMap id))
      (context.addFile progress file) (context.fileAfresh file) := by
  rw [addFile, fileAfresh]
  split
  · exact .found ⟨by simpa using shows.1, shows.2⟩
  · exact alike_bind_same fun declarations => alike_declarations shows declarations

theorem alike_files {progress : Progress} {results : List FileDependencies} (shows : context.Shows progress results)
    (files : List String) :
    Alike (fun next given => context.Shows next (results ++ given.flatten.filterMap id))
      (files.foldlM context.addFile progress) (files.mapM context.fileAfresh) := by
  induction files generalizing progress results with
  | nil => exact .found ⟨by simpa using shows.1, shows.2⟩
  | cons file rest ih =>
    rw [List.foldlM_cons, List.mapM_cons]
    refine alike_bind (alike_addFile shows file) ?_
    intro next given step
    refine alike_map _ (ih step) ?_
    intro last later run
    rwa [List.append_assoc, ← List.filterMap_append, ← List.flatten_cons] at run

end Context

open Context

/-- What a builder would find in a unit if it remembered no path: the results of all declarations, in their order. -/
def resultsAfresh (builder : Builder) (host : Host) (tree : FileTree) (unit : CompilationUnit) :
    Except Fault (List FileDependencies) := do
  let markup ← builder.knownMarkup host tree unit
  let files ← builder.frontend.sourceFiles unit
  let given ← files.mapM (builder.inUnit host tree unit markup).fileAfresh
  pure (given.flatten.filterMap id)

/-- Remembering paths changes nothing in what a unit gives, be it results or a failure. -/
theorem resultsOf_eq_afresh (builder : Builder) (host : Host) (tree : FileTree) (unit : CompilationUnit) :
    builder.resultsOf host tree unit = builder.resultsAfresh host tree unit := by
  apply eq_of_alike
  apply alike_bind_same
  intro markup
  apply alike_bind_same
  intro files
  have start : (builder.inUnit host tree unit markup).Shows {} [] := ⟨rfl, remembers_nil⟩
  refine alike_bind (alike_files start files) ?_
  intro progress given shows
  exact .found shows.1

end DeclGraph.Builder
