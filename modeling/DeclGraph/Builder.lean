import DeclGraph.Frontend.Basic
import DeclGraph.Graph.Basic
import DeclGraph.Symbol.Traversal

/-!
Direct dependencies of the declarations in a compilation unit. A path that a frontend reports counts
when it names a file of the tree. A path that does not is taken for a generated file and stands for the
first of its markers that names a known markup file; without such a marker it is dropped.
-/

namespace DeclGraph

structure Builder where
  frontend : Frontend
  /-- Endings of markup files, in lower case. -/
  markupExtensions : List String
  /-- The known markup files, if they are not those that the unit reports. -/
  markupFiles : Option FileSet

namespace Builder

def defaultMarkupExtensions : List String := [".razor", ".cshtml"]

def lowerExtension : Document → Except Fault String
  | .scalar (.text value) => .ok (Text.lower value)
  | value => .error (.lacks value.kindWord "lower")

def create (host : Host) (frontend : Frontend) (extensions : List Document)
    (markupFiles : Option (List Document)) : Except Fault Builder := do
  let markupExtensions ← extensions.mapM lowerExtension
  match markupFiles with
  | none => pure ⟨frontend, markupExtensions, none⟩
  | some files =>
    let known ← files.mapM host.locateValue
    pure ⟨frontend, markupExtensions, some (FileSet.ofList known)⟩

def hasMarkupExtension (builder : Builder) (path : String) : Bool :=
  builder.markupExtensions.any fun ending => ending.toList.isSuffixOf (Text.lower path).toList

def existingMarkup (builder : Builder) (host : Host) (tree : FileTree) (paths : List String) :
    List String :=
  (paths.filter fun path => path ≠ "" ∧ builder.hasMarkupExtension path).map host.canonical
    |>.filter tree.isFile

def knownMarkup (builder : Builder) (host : Host) (tree : FileTree) (unit : CompilationUnit) :
    Except Fault FileSet :=
  match builder.markupFiles with
  | some files => .ok files
  | none => do
    let paths ← builder.frontend.markupFiles unit
    pure (FileSet.ofList (builder.existingMarkup host tree paths))

structure Context where
  builder : Builder
  host : Host
  tree : FileTree
  unit : CompilationUnit
  markup : FileSet

abbrev PathCache := List (String × Option String)

namespace Context

-- The file that a marker names, if it is a known markup file.
def markedFile (context : Context) (unitDirectory marker : String) : Option String :=
  if marker = "" ∨ !context.builder.hasMarkupExtension marker then none
  else
    let candidate := context.host.canonical (Path.joinTo unitDirectory marker)
    if context.tree.isFile candidate ∧ candidate ∈ context.markup then some candidate else none

def markupSource (context : Context) (path : String) : Except Fault (Option String) := do
  let unitPath ← context.host.locate context.unit.path
  let markers ← context.builder.frontend.markers context.unit path
  pure (markers.findSome? (context.markedFile (Path.directory unitPath)))

def resolve (context : Context) (path : String) : Except Fault (Option String) := do
  let place ← context.host.locate path
  if context.tree.isFile place then pure (some place) else context.markupSource path

def resolveCached (context : Context) (cache : PathCache) (path : String) :
    Except Fault (Option String × PathCache) :=
  match cache.lookup path with
  | some known => .ok (known, cache)
  | none => do
    let found ← context.resolve path
    pure (found, (path, found) :: cache)

/-- The file that a reported value stands for; only a text is a path. -/
def resolveValue (context : Context) (cache : PathCache) (value : Document) :
    Except Fault (Option String × PathCache) :=
  match value with
  | .scalar (.text path) => context.resolveCached cache path
  | _ =>
    match value.key? with
    | none => .error (.notName value.kindWord)
    | some _ => do
      let _ ← context.host.locateValue value
      pure (none, cache)

/-- The files that reported values stand for, without the declaring file itself. -/
def resolveAll (context : Context) (file : String) :
    PathCache → List Document → Except Fault (FileSet × PathCache)
  | cache, [] => .ok ([], cache)
  | cache, path :: rest => do
    let (found, cache) ← context.resolveValue cache path
    let (files, cache) ← context.resolveAll file cache rest
    match found with
    | some dependency => pure (if dependency = file then files else files.insert dependency, cache)
    | none => pure (files, cache)

def symbol? (context : Context) (ref : TypeRef) : Option TypeSymbol :=
  (context.builder.frontend.symbols context.unit).types[ref]?

/-- The direct dependencies of one declaration, or nothing if it is skipped. -/
def analyzeDeclaration (context : Context) (cache : PathCache) (declaration : TypeDeclaration) :
    Except Fault (Option FileDependencies × PathCache) := do
  match ← context.builder.frontend.symbolOf context.unit declaration with
  | none => pure (none, cache)
  | some ref =>
    let (source, cache) ← context.resolveValue cache declaration.file
    match source with
    | none => pure (none, cache)
    | some file =>
      let reported ← (context.builder.frontend.symbols context.unit).dependencies ref
      let (dependencies, cache) ← context.resolveAll file cache reported
      let name := ((context.symbol? ref).map (·.name)).getD .null
      pure (some ⟨file, dependencies, name⟩, cache)

structure Progress where
  results : List FileDependencies := []
  skipped : Nat := 0
  cache : PathCache := []

def addDeclaration (context : Context) (progress : Progress) (declaration : TypeDeclaration) :
    Except Fault Progress := do
  let (result, cache) ← context.analyzeDeclaration progress.cache declaration
  match result with
  | none => pure { progress with skipped := progress.skipped + 1, cache }
  | some result => pure { progress with results := progress.results ++ [result], cache }

def addFile (context : Context) (progress : Progress) (file : String) : Except Fault Progress :=
  if file = "" then .ok progress
  else do
    let declarations ← context.builder.frontend.declarations context.unit file
    declarations.foldlM context.addDeclaration progress

def analyze (context : Context) (files : List String) : Except Fault Progress :=
  files.foldlM context.addFile {}

end Context

def analyzedMessage (unit : CompilationUnit) (progress : Context.Progress) : String :=
  "Analyzed compilation unit " ++ unit.name ++ ": " ++ toString progress.results.length
    ++ " declarations, " ++ toString progress.skipped ++ " skipped"

-- The direct dependencies of every declaration in a unit, reported by a thread.
def directDependencies (builder : Builder) (host : Host) (thread : String) (unit : CompilationUnit) :
    Run (List FileDependencies) := do
  let tree ← Run.tree
  let markup ← Run.ofExcept (builder.knownMarkup host tree unit)
  let files ← builder.frontend.listNoted unit
  let progress ← Run.ofExcept (Context.analyze ⟨builder, host, tree, unit, markup⟩ files)
  Run.record
    { channel := Channel.builder, level := .info, message := analyzedMessage unit progress, thread }
  pure progress.results

def dependenciesOf (builder : Builder) (host : Host) (unit : UnitOperand) :
    Run (List FileDependencies) :=
  match unit with
  | .unit unit => builder.directDependencies host "MainThread" unit
  | .other value => throw (if value.isNull then .absent "unit" else .lacks value.kindWord "path")

end Builder

end DeclGraph
