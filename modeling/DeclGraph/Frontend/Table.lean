import DeclGraph.Frontend.Basic

/-!
A frontend whose symbols and units are given by a document. Types and methods refer to each other by
key, so every shape of symbol graph can be written down, cycles included. All types are made first,
then all methods, then their links.
-/

namespace DeclGraph.Frontend.Table

def itemsOf : Document → List Document
  | .list items => items
  | _ => []

/-- Keys with positions. Of equal keys the last counts. -/
abbrev Positions := List (String × Nat)

def Positions.find? (positions : Positions) (key : Document) : Option Nat :=
  key.text?.bind fun key => (positions.reverse.find? fun entry => entry.1 = key).map (·.2)

def positionsOf (entries : List Document) : Positions :=
  entries.zipIdx.filterMap fun (entry, index) => (entry.field "key").text?.map fun key => (key, index)

-- A field, or a default if it is not there at all.
def fieldOr (entry : Document) (name : String) (default : Document) : Document :=
  match entry with
  | .map entries => (Entries.find? entries (.text name)).getD default
  | _ => default

def typeOf (entry : Document) : Except Fault TypeSymbol :=
  TypeSymbol.create (fieldOr entry "id" (entry.field "key")) (entry.field "name")
    (entry.field "file") (fieldOr entry "external" (.bool false)) (fieldOr entry "kind" (.text "named"))

def methodOf (entry : Document) : Except Fault MethodSymbol :=
  MethodSymbol.create (fieldOr entry "id" (entry.field "key")) (entry.field "name") .null

structure Keys where
  types : Positions
  methods : Positions

namespace Keys

def type (keys : Keys) (key : Document) : Option TypeRef := keys.types.find? key

def method (keys : Keys) (key : Document) : Option MethodRef := keys.methods.find? key

def typesOf (keys : Keys) (value : Document) : List (Option TypeRef) :=
  (itemsOf value).map keys.type

def parametersOf (keys : Keys) (value : Document) : List Parameter :=
  (itemsOf value).map fun entry =>
    ⟨keys.type (entry.field "type"), entry.field "name", keys.type (entry.field "default")⟩

def memberOf (keys : Keys) (entry : Document) : Except Fault (Option Member) :=
  let make (shape : MemberShape) : Except Fault (Option Member) := do
    let symbol ← MemberSymbol.create (entry.field "id") (entry.field "name") .null shape
      (keys.typesOf (entry.field "attributes"))
    pure (some (.plain symbol))
  if entry.isNull then .ok none
  else
    match (entry.field "kind").text? with
    | some "field" => make (.field (keys.type (entry.field "type")))
    | some "event" => make (.event (keys.type (entry.field "type")))
    | some "property" =>
      make (.property (keys.type (entry.field "type")) (keys.parametersOf (entry.field "parameters")))
    | some "nested_type" => .ok ((keys.type (entry.field "type")).map Member.nested)
    | some "method" => .ok ((keys.method (entry.field "method")).map Member.method)
    | _ => make .bare

/-- One reference of a method body. Its kind may be overwritten once it is made. -/
def referenceOf (keys : Keys) (entry : Document) : Except Fault BodyReference := do
  let reference ← BodyReference.create (entry.field "kind") (keys.type (entry.field "type"))
    (keys.method (entry.field "method"))
  let forced := entry.field "tampered_kind"
  pure (if forced.isNull then reference else { reference with kind := forced })

def linkType (keys : Keys) (symbol : TypeSymbol) (entry : Document) : Except Fault TypeSymbol := do
  let members ← (itemsOf (entry.field "members")).mapM keys.memberOf
  pure { symbol with
    base := keys.type (entry.field "base")
    interfaces := keys.typesOf (entry.field "interfaces")
    typeParameters := keys.typesOf (entry.field "type_parameters")
    constraints := keys.typesOf (entry.field "constraints")
    typeArguments := keys.typesOf (entry.field "type_arguments")
    originalDefinition := keys.type (entry.field "original_definition")
    element := keys.type (entry.field "element")
    tupleElements := keys.typesOf (entry.field "tuple")
    signature := keys.method (entry.field "signature")
    attributes := keys.typesOf (entry.field "attributes")
    members := members }

def linkMethod (keys : Keys) (symbol : MethodSymbol) (entry : Document) :
    Except Fault MethodSymbol := do
  let body ← match entry.field "body" with
    | .scalar .null => pure none
    | body => do
      let references ← (itemsOf body).mapM keys.referenceOf
      pure (some references)
  pure { symbol with
    returnType := keys.type (entry.field "return_type")
    parameters := keys.parametersOf (entry.field "parameters")
    typeParameters := keys.typesOf (entry.field "type_parameters")
    attributes := keys.typesOf (entry.field "attributes")
    body := body }

end Keys

def symbolsOf (keys : Keys) (types methods : List Document) : Except Fault SymbolTable := do
  let bareTypes ← types.mapM typeOf
  let bareMethods ← methods.mapM methodOf
  let linkedTypes ← (bareTypes.zip types).mapM fun (symbol, entry) => keys.linkType symbol entry
  let linkedMethods ← (bareMethods.zip methods).mapM fun (symbol, entry) =>
    keys.linkMethod symbol entry
  pure ⟨linkedTypes.toArray, linkedMethods.toArray⟩

-- A list of texts; whatever is no text counts as empty.
def textsOf (value : Document) : List String := (itemsOf value).map fun item => item.text?.getD ""

-- The pairs of a value that is a list of pairs, by the text in front.
def pairsOf (value : Document) : List (String × Document) :=
  (itemsOf value).filterMap fun
    | .list (name :: second :: _) => some (name.text?.getD "", second)
    | _ => none

-- One declaration in a file; the entry may give another file.
def declarationOf (file : String) (entry : Document) : TypeDeclaration :=
  ⟨if (entry.field "file").isNull then .text file else entry.field "file", entry.field "name",
    entry.field "type"⟩

structure Plan where
  path : Document
  name : String
  unit : TableUnit
  /-- The service that is asked to stop when the unit is opened. -/
  cancels : Document

def planOf (table : SymbolTable) (keys : Keys) (entry : Document) : Plan where
  path := entry.field "path"
  name := (fieldOr entry "name" (entry.field "path")).display
  cancels := entry.field "cancel_on_open"
  unit :=
    { table
      keys := keys.types
      files := if (entry.field "files").isNull then none else some (textsOf (entry.field "files"))
      declarations := (pairsOf (entry.field "declarations")).map fun (file, entries) =>
        (file, (itemsOf entries).map (declarationOf file))
      markers := (pairsOf (entry.field "markers")).map fun (file, markers) => (file, textsOf markers)
      markupFiles := textsOf (entry.field "markup_files")
      failure := if (entry.field "fail").isNull then none else some (entry.field "fail").display }

def tableUnit (unit : CompilationUnit) : Except Fault TableUnit :=
  match unit.handle with
  | .table table => .ok table
  | .manifest _ => .error (.lacks "unit" "declarations")

def cancelNamed (name : String) : Run Unit := do
  match (← get).services.find? fun entry => entry.1 = name with
  | some (_, service) => Run.cancel service
  | none => throw (.noKey (.text name))

def openPlan (plans : List Plan) (path : Document) : Run CompilationUnit := do
  match plans.find? fun plan => plan.path.same path with
  | none => throw (.unitMissing path)
  | some plan =>
    match plan.cancels.text? with
    | some name => cancelNamed name
    | none => pure ()
    pure ⟨plan.path.text?.getD "", plan.name, .table plan.unit⟩

def sourceFiles (unit : TableUnit) : Except Fault (List String) :=
  match unit.failure with
  | some report => .error (.unitFailed report)
  | none => .ok (unit.files.getD (unit.declarations.map (·.1)))

def ofDocument (name : String) (document : Document) : Except Fault Frontend := do
  let types := itemsOf (document.field "types")
  let methods := itemsOf (document.field "methods")
  let keys : Keys := ⟨positionsOf types, positionsOf methods⟩
  let table ← symbolsOf keys types methods
  let plans := (itemsOf (document.field "units")).map (planOf table keys)
  pure {
    name
    openUnit := openPlan plans
    sourceFiles := fun unit => do sourceFiles (← tableUnit unit)
    declarations := fun unit file => do
      let unit ← tableUnit unit
      pure ((unit.declarations.filter fun entry => entry.1 = file).flatMap (·.2))
    symbols := fun unit => ((tableUnit unit).toOption.map (·.table)).getD {}
    symbolOf := fun unit declaration => do
      let unit ← tableUnit unit
      pure (Positions.find? unit.keys declaration.handle)
    markers := fun unit file => do
      let unit ← tableUnit unit
      pure (((unit.markers.filter fun entry => entry.1 = file).getLast?.map (·.2)).getD [])
    markupFiles := fun unit => do
      let unit ← tableUnit unit
      pure unit.markupFiles }

end DeclGraph.Frontend.Table
