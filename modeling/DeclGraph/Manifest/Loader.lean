import DeclGraph.Manifest.Interning
import DeclGraph.Rows

/-!
Reads a manifest, the symbol dump of one compilation unit. Declared types are entered first, so that
references can point forward; then their parts are linked in the order in which they are written. Files
are relative to the directory of the manifest.
-/

namespace DeclGraph.Manifest

namespace Load

/-- What a loop over a value meets; an unset value has nothing. -/
def loop (value : Document) : Load (List Document) :=
  if !value.isSet then pure []
  else
    match value.elements? with
    | some elements => pure elements
    | none => throw (.notIterable value.kindWord)

def entriesOf (value : Document) : Load Entries :=
  if !value.isSet then pure []
  else
    match value.entries? with
    | some entries => pure entries
    | none => throw (.lacks value.kindWord "items")

def typeOf (value : Document) : Load (Option TypeRef) := resolve (Reference.ofDocument value)

def typesOf (value : Document) : Load (List (Option TypeRef)) := do
  (← loop value).mapM typeOf

def pathOf (host : Host) (value : Document) : Load String := do
  match value with
  | .scalar (.text path) =>
    if path = "" then refuse (.notPath value)
    else
      let directory := Path.directory (← get).path
      let full :=
        if Path.isAbsolute path then path else Path.joinAll directory (Path.segments path)
      pure (host.canonical full)
  | _ => refuse (.notPath value)

-- The id that an entry gives, if it is a mapping with one.
def givenId? (entry : Document) : Option Document := (entry.field "id").ifSet

def parameterEntry : Document → Document
  | .scalar (.text id) => .object [("id", .text id)]
  | entry => entry

def declareParameter (given : Document) : Load Unit := do
  let entry := parameterEntry given
  match givenId? entry with
  | none => refuse (.parameterWithoutId entry)
  | some id =>
    let key ← keyOf id
    if (← find? key).isSome then refuse (.duplicateId id)
    let _ ← enter key
      { id, name := displayName id (entry.field "name"), kind := .typeParameter }

def declareType (host : Host) (entry : Document) : Load Unit := do
  match givenId? entry with
  | none => refuse (.typeWithoutId entry)
  | some id =>
    let key ← keyOf id
    if (← find? key).isSome then refuse (.duplicateId id)
    let file ← match (entry.field "file").ifSet with
      | none => pure .null
      | some file => Document.text <$> pathOf host file
    let _ ← enter key
      { id, name := displayName id (entry.field "name"), file
        external := .bool (entry.field "external").isSet }
    (← loop (entry.field "type_parameters")).forM declareParameter

def known (id : Document) : Load TypeRef := do
  let key ← keyOf id
  match ← find? key with
  | some ref => pure ref
  | none => throw (.noKey id)

def linkParameter (entry : Document) : Load TypeRef := do
  match entry with
  | .scalar (.text id) => known (.text id)
  | entry =>
    let ref ← known (entry.field "id")
    let constraints ← typesOf (entry.field "constraints")
    update ref fun symbol => { symbol with constraints }
    pure ref

/-- The parameters of a method or an indexer. What is no mapping is the type alone. -/
def parametersOf (value : Document) : Load (List Parameter) := do
  (← loop value).mapM fun entry => do
    match entry.entries? with
    | some _ =>
      let type ← typeOf (entry.field "type")
      let defaultType ← typeOf (entry.field "default")
      pure ⟨type, entry.field "name", defaultType⟩
    | none =>
      let type ← typeOf entry
      pure ⟨type, .null, none⟩

/-- The type parameters of a method. Those not known yet are entered. -/
def methodParameters (value : Document) : Load (List (Option TypeRef)) := do
  (← loop value).mapM fun parameter => do
    let id ← match parameter.opened with
      | .scalar (.text _) => pure parameter
      | .map _ => pure (parameter.field "id")
      | other => throw (.lacks other.kindWord "get")
    let key ← keyOf id
    if (← find? key).isNone then declareParameter parameter
    some <$> linkParameter parameter

mutual

/-- A method with an id. Each nested method spends one unit of fuel; only one that contains itself can
spend it all. -/
def method (fuel : Nat) (entry : Document) (id : Document) : Load MethodRef :=
  match fuel with
  | 0 => throw .endless
  | fuel + 1 => do
    let typeParameters ← methodParameters (entry.field "type_parameters")
    let body ← match entry.entries? with
      | some entries =>
        if Entries.has entries "body" then some <$> bodyOf fuel (Entries.get entries "body") id
        else pure none
      | none => pure none
    let returnType ← typeOf (entry.field "return_type")
    let parameters ← parametersOf (entry.field "parameters")
    let attributes ← typesOf (entry.field "attributes")
    enterMethod
      { id, name := displayName id (entry.field "name"), returnType, parameters, typeParameters
        body, attributes }
termination_by 3 * fuel

def bodyOf (fuel : Nat) (value : Document) (id : Document) : Load (List BodyReference) := do
  (← loop value).zipIdx.mapM fun (entry, index) => bodyReference fuel entry id index
termination_by 3 * fuel + 2

def bodyReference (fuel : Nat) (entry : Document) (id : Document) (index : Nat) :
    Load BodyReference := do
  match entry.entries? with
  | some _ =>
    match ReferenceKind.ofValue? (entry.field "kind") with
    | none => refuse (.invalidBodyReference id entry)
    | some kind =>
      let nested ←
        if kind = .localFunction ∨ kind = .lambda then
          let inner := ((entry.field "method").ifSet).getD (.map [])
          match inner.entries? with
          | some _ =>
            let innerId ← match (inner.field "id").ifSet with
              | some given => pure given
              | none => pure (.text ((← textOf id) ++ "#" ++ kind.word ++ toString index))
            some <$> method fuel inner innerId
          | none => refuse (.invalidBodyMethod kind.word id)
        else pure none
      let type ← typeOf (entry.field "type")
      pure ⟨.text kind.word, type, nested⟩
  | none => refuse (.invalidBodyReference id entry)
termination_by 3 * fuel + 1

end

/-- The id of a member. One that gives none has the owner's id with the member's name or number. -/
def memberId (owner entry : Document) (index : Nat) : Load Document := do
  match (entry.field "id").ifSet with
  | some given => pure given
  | none =>
    let ownerText ← textOf owner
    let last ← textOf (((entry.field "name").ifSet).getD (.nat index))
    pure (.text (ownerText ++ "." ++ last))

def member (fuel : Nat) (owner entry : Document) (index : Nat) : Load Member := do
  match entry.entries? with
  | some _ =>
    let id ← memberId owner entry index
    let attributes ← typesOf (entry.field "attributes")
    let plain (shape : MemberShape) : Member :=
      .plain { id, name := displayName id (entry.field "name"), shape, attributes }
    match (entry.field "kind").text? with
    | some "field" => return plain (.field (← typeOf (entry.field "type")))
    | some "property" =>
      let type ← typeOf (entry.field "type")
      let parameters ← parametersOf (entry.field "parameters")
      return plain (.property type parameters)
    | some "event" => return plain (.event (← typeOf (entry.field "type")))
    | some "method" => .method <$> method fuel entry id
    | some "nested_type" =>
      match ← typeOf (entry.field "type") with
      | some ref => pure (.nested ref)
      | none => refuse (.nestedWithoutType owner)
    | _ => refuse (.unknownMemberKind (entry.field "kind") owner)
  | none => refuse (.invalidMember owner entry)

def linkType (fuel : Nat) (entry : Document) : Load Unit := do
  let id := entry.field "id"
  let ref ← known id
  let base ← typeOf (entry.field "base")
  update ref fun symbol => { symbol with base }
  let interfaces ← typesOf (entry.field "interfaces")
  update ref fun symbol => { symbol with interfaces }
  let typeParameters ← (← loop (entry.field "type_parameters")).mapM linkParameter
  update ref fun symbol => { symbol with typeParameters := typeParameters.map some }
  let typeArguments ← typesOf (entry.field "type_arguments")
  update ref fun symbol => { symbol with typeArguments }
  let attributes ← typesOf (entry.field "attributes")
  update ref fun symbol => { symbol with attributes }
  let members ← (← loop (entry.field "members")).zipIdx.mapM fun (entry, index) =>
    member fuel id entry index
  update ref fun symbol => { symbol with members := members.map some }

def listedDeclarations (host : Host) (value : Document) : Load (List (String × List Document)) := do
  (← entriesOf value).foldlM (fun rows (file, ids) => do
    match ids.items? with
    | some ids =>
      let texts ← ids.mapM textOf
      let path ← pathOf host (.scalar file)
      pure (Rows.set rows path (texts.map Document.text))
    | none => refuse (.declarationsNotList file)) []

def ownDeclarations (entries : List Document) : Load (List (String × List Document)) :=
  entries.foldlM (fun rows entry => do
    let symbol ← symbolAt (← known (entry.field "id"))
    match symbol.file.text? with
    | none => pure rows
    | some file =>
      if symbol.external.isSet then pure rows else pure (Rows.append rows file symbol.id)) []

def markersOf (host : Host) (value : Document) : Load (List (String × List String)) := do
  (← entriesOf value).foldlM (fun rows (file, markers) => do
    let texts ← ((markers.items?).getD [markers]).mapM textOf
    let path ← pathOf host (.scalar file)
    pure (Rows.set rows path texts)) []

/-- Reads the content of a manifest. Nothing in it is nested deeper than `fuel`. -/
def unit (host : Host) (fuel : Nat) (data : Document) : Load ManifestUnit := do
  let types := ((data.field "types").ifSet).getD (.list [])
  match types.items? with
  | some entries =>
    entries.forM (declareType host)
    entries.forM (linkType fuel)
    let listed ← listedDeclarations host (data.field "declarations")
    let declarations ← if listed.isEmpty then ownDeclarations entries else pure listed
    let sourceFiles ← match data.field "files" with
      | .scalar .null => pure (declarations.map (·.1))
      | files =>
        match files.elements? with
        | some elements => elements.mapM (pathOf host)
        | none => throw (.notIterable files.kindWord)
    let markupFiles ← (← loop (data.field "markup_files")).mapM (pathOf host)
    let markers ← markersOf host (data.field "original_file_markers")
    let loading ← get
    pure
      { path := loading.path, table := loading.table, ids := loading.ids
        sourceFiles, markupFiles, markers, declarations }
  | none => refuse .typesNotList

end Load

def load (host : Host) (path : String) (fuel : Nat) (data : Document) : Except Fault ManifestUnit := do
  let (unit, _) ← (Load.unit host fuel data).run { path }
  pure unit

end DeclGraph.Manifest
