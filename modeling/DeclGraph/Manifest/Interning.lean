import DeclGraph.Frontend.Basic
import DeclGraph.Manifest.Reference

/-!
The symbol table of a manifest while it is read. Every symbol is entered under its id, and a reference
to an id that is already there gives the symbol that stands there. Built types get ids from their
parts, so equal references meet in one symbol.
-/

namespace DeclGraph.Manifest

structure Loading where
  /-- The canonical path of the manifest. -/
  path : String
  table : SymbolTable := {}
  /-- Where the symbol of an id stands, in the order of their making. -/
  ids : List (Key × TypeRef) := []
  /-- How many ids were made up. -/
  madeUp : Nat := 0
  deriving Inhabited

abbrev Load := StateT Loading (Except Fault)

namespace Load

def checkShowable (value : Document) : Load Unit :=
  if value.isShowable then pure () else throw (.numeral .tooLongToWrite)

def textOf (value : Document) : Load String := do
  checkShowable value
  pure value.display

def refuse {α : Type} (defect : Defect) : Load α := do
  defect.values.forM checkShowable
  throw (.defectiveManifest (← get).path defect)

def keyOf (id : Document) : Load Key :=
  match id.key? with
  | some key => pure key
  | none => throw (.notName id.kindWord)

def find? (key : Key) : Load (Option TypeRef) := return (← get).ids.lookup key

def enter (key : Key) (symbol : TypeSymbol) : Load TypeRef := do
  let loading ← get
  let ref := loading.table.types.size
  set { loading with
    table := { loading.table with types := loading.table.types.push symbol }
    ids := loading.ids ++ [(key, ref)] }
  pure ref

def enterMethod (symbol : MethodSymbol) : Load MethodRef := do
  let loading ← get
  set { loading with
    table := { loading.table with methods := loading.table.methods.push symbol } }
  pure loading.table.methods.size

def update (ref : TypeRef) (change : TypeSymbol → TypeSymbol) : Load Unit :=
  modify fun loading =>
    { loading with
      table := { loading.table with types := loading.table.types.modify ref change } }

def makeUp (start : String) : Load String := do
  let loading ← get
  set { loading with madeUp := loading.madeUp + 1 }
  pure (start ++ "#" ++ toString (loading.madeUp + 1))

def symbolAt (ref : TypeRef) : Load TypeSymbol := do
  match (← get).table.types[ref]? with
  | some symbol => pure symbol
  | none => throw (.lacks Document.null.kindWord "symbol_id")

def idOf (ref : Option TypeRef) : Load String := do
  match ref with
  | none => throw (.lacks Document.null.kindWord "symbol_id")
  | some ref =>
    match (← symbolAt ref).id with
    | .scalar (.text id) => pure id
    | _ => throw .wrongShape

def idsOf : List (Option TypeRef) → Load (List String)
  | [] => pure []
  | ref :: rest => do
    let id ← idOf ref
    return id :: (← idsOf rest)

def library (id : String) : Load TypeRef := do
  match ← find? (.text id) with
  | some ref => pure ref
  | none =>
    if id = "" then throw .emptyId
    enter (.text id) { id := .text id, name := .text id, external := .bool true }

-- A built type: the symbol of its id, made if it is not there.
def built (id : String) (symbol : TypeSymbol) : Load TypeRef := do
  match ← find? (.text id) with
  | some ref => pure ref
  | none => enter (.text id) { symbol with id := .text id, name := .text id }

/-- Nothing else may stand where a list of references should. -/
def checkListed : Option String → Load Unit
  | none => pure ()
  | some kind => throw (.notIterable kind)

def wrapped (element : Option TypeRef) (kind : TypeKind) (ending : String) (source : Document) :
    Load (Option TypeRef) := do
  match element with
  | none => refuse (.withoutElement kind.word source)
  | some ref =>
    let id ← idOf (some ref)
    some <$> built (id ++ ending) { id := .null, name := .null, kind, element := some ref }

mutual

def resolve : Reference → Load (Option TypeRef)
  | .absent => pure none
  | .named id => some <$> library id
  | .defective defect => refuse defect
  | .endless => throw .endless
  | .generic definition instead arguments source => do
    match ← resolve definition with
    | none => refuse (.genericWithoutDefinition source)
    | some definition =>
      checkListed instead
      let typeArguments ← resolveAll arguments
      let definitionId ← idOf (some definition)
      let ids ← idsOf typeArguments
      let id := definitionId ++ "<" ++ ",".intercalate ids ++ ">"
      some <$> built id
        { id := .null, name := .null, originalDefinition := some definition, typeArguments }
  | .array element source => do wrapped (← resolve element) .array "[]" source
  | .pointer element source => do wrapped (← resolve element) .pointer "*" source
  | .tuple instead elements => do
    checkListed instead
    let tupleElements ← resolveAll elements
    let ids ← idsOf tupleElements
    some <$> built ("(" ++ ",".intercalate ids ++ ")")
      { id := .null, name := .null, kind := .tuple, tupleElements }
  | .functionPointer returnType instead parameters => do
    let returned ← resolve returnType
    checkListed instead
    let types ← resolveAll parameters
    let ids ← idsOf types
    let last ← match returned with
      | some ref => idOf (some ref)
      | none => pure "void"
    let name ← makeUp "signature"
    let signature ← enterMethod
      { id := .text name, name := .text name, returnType := returned
        parameters := types.map fun type => ⟨type, .null, none⟩ }
    some <$> built ("delegate*<" ++ ",".intercalate (ids ++ [last]) ++ ">")
      { id := .null, name := .null, kind := .functionPointer, signature := some signature }

def resolveAll : List Reference → Load (List (Option TypeRef))
  | [] => pure []
  | reference :: rest => do
    let ref ← resolve reference
    return ref :: (← resolveAll rest)

end

end Load

end DeclGraph.Manifest
