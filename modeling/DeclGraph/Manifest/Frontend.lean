import DeclGraph.Json.Reader
import DeclGraph.Manifest.Loader
import DeclGraph.Text.Lines
import DeclGraph.Yaml.Reader

/-!
The frontend that opens manifests. A manifest whose name ends in `.json` is JSON, any other is YAML.
-/

namespace DeclGraph.Manifest

def jsonDocument (given : Document) (bytes : ByteArray) : Except Fault Document :=
  match Text.ofBytes bytes with
  | .error flaw => .error (.undecodable flaw)
  | .ok text =>
    match Json.parse text with
    | .ok document => .ok document
    | .error .malformed => .error (.unreadableManifest given)
    | .error (.numeral defect) => .error (.numeral defect)

def yamlDocument (given : Document) (bytes : ByteArray) : Except Fault Document :=
  match Yaml.parse bytes with
  | .ok document => .ok document
  | .error (.unusable fault) => .error fault
  | .error _ => .error (.unreadableManifest given)

/-- The document in a manifest; `given` is the path to report. -/
def documentOf (given : Document) (path : String) (bytes : ByteArray) : Except Fault Document :=
  if ".json".toList.isSuffixOf path.toList then jsonDocument given bytes
  else yamlDocument given bytes

/-- A manifest is a mapping; an empty one counts as a mapping without entries. -/
def mappingOf (given : Document) (data : Document) : Except Fault Document :=
  if data.isNull then .ok (.map [])
  else if data.entries?.isSome then .ok data
  else .error (.manifestNotMapping given data.kindText)

-- The name of a unit: the one given, or the name of the file.
def unitName (path : String) (given : Document) : Except Fault String :=
  match given.ifSet with
  | none => .ok (Path.fileName path)
  | some name => if name.isShowable then .ok name.display else .error (.numeral .tooLongToWrite)

/-- Opens a manifest. Its values are nested no deeper than its text is long. -/
def openUnit (host : Host) (given : Document) : Run CompilationUnit := do
  let path ← Run.ofExcept (host.locateValue given)
  if !(← Run.tree).isFile path then throw (.manifestMissing given)
  let bytes ← Run.onTree path ((← Run.tree).read path)
  let data ← Run.ofExcept (documentOf given path bytes >>= mappingOf given)
  let unit ← Run.ofExcept (load host path (bytes.size + 1) data)
  let name ← Run.ofExcept (unitName path (data.field "name"))
  pure ⟨path, name, .manifest unit⟩

def unitOf (unit : CompilationUnit) : Except Fault ManifestUnit :=
  match unit.handle with
  | .manifest manifest => .ok manifest
  | .table _ => .error (.foreignUnit unit.name)

def idsIn (host : Host) (unit : ManifestUnit) (file : Document) : Except Fault (List Document) := do
  let path ← host.locateValue file
  pure ((unit.declarations.lookup path).getD [])

def declarationsIn (host : Host) (unit : ManifestUnit) (file : String) :
    Except Fault (List TypeDeclaration) := do
  let ids ← idsIn host unit (.text file)
  pure (ids.map fun id => ⟨.text file, id, id⟩)

-- The symbol of an id, if it is a type declared in the sources.
def declaredSymbol (unit : ManifestUnit) (id : Document) : Except Fault (Option TypeRef) :=
  match id.key? with
  | none => .error (.notName id.kindWord)
  | some key =>
    .ok ((unit.ids.lookup key).filter fun ref =>
      match unit.table.types[ref]? with
      | some symbol => symbol.kind = .named && !symbol.external.isSet
      | none => false)

def markersOf (host : Host) (unit : ManifestUnit) (file : Document) :
    Except Fault (List String) := do
  let path ← host.locateValue file
  pure ((unit.markers.lookup path).getD [])

def frontend (host : Host) : Frontend where
  name := "manifest"
  openUnit := openUnit host
  sourceFiles unit := do pure (← unitOf unit).sourceFiles
  declarations unit file := do declarationsIn host (← unitOf unit) file
  symbols unit := ((unitOf unit).toOption.map (·.table)).getD {}
  symbolOf unit declaration := do declaredSymbol (← unitOf unit) declaration.handle
  markers unit file := do markersOf host (← unitOf unit) (.text file)
  markupFiles unit := do pure (← unitOf unit).markupFiles

end DeclGraph.Manifest
