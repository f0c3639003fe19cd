import DeclGraph.Fault

/-!
Symbols of a type-checked program. Types and methods may refer to each other in cycles, so a table
holds them and links are positions in it. A symbol is identified by its id, not by its position: two
entries may share an id.
-/

namespace DeclGraph

inductive TypeKind where
  | named
  | array
  | pointer
  | functionPointer
  | tuple
  | typeParameter
  deriving DecidableEq, Repr, Inhabited

namespace TypeKind

def word : TypeKind → String
  | named => "named"
  | array => "array"
  | pointer => "pointer"
  | functionPointer => "function_pointer"
  | tuple => "tuple"
  | typeParameter => "type_parameter"

def all : List TypeKind := [named, array, pointer, functionPointer, tuple, typeParameter]

def ofValue? (value : Document) : Option TypeKind :=
  all.find? fun kind => value.text? = some kind.word

/-- Made up of other types, without a declaration of its own. -/
def isConstructed : TypeKind → Bool
  | array | pointer | functionPointer | tuple => true
  | named | typeParameter => false

end TypeKind

inductive ReferenceKind where
  | typeReference
  | objectCreation
  | cast
  | pattern
  | localFunction
  | lambda
  deriving DecidableEq, Repr, Inhabited

namespace ReferenceKind

def word : ReferenceKind → String
  | typeReference => "type_reference"
  | objectCreation => "object_creation"
  | cast => "cast"
  | pattern => "pattern"
  | localFunction => "local_function"
  | lambda => "lambda"

def all : List ReferenceKind :=
  [typeReference, objectCreation, cast, pattern, localFunction, lambda]

def ofValue? (value : Document) : Option ReferenceKind :=
  all.find? fun kind => value.text? = some kind.word

end ReferenceKind

abbrev TypeRef := Nat

abbrev MethodRef := Nat

structure Parameter where
  type : Option TypeRef
  name : Document
  defaultType : Option TypeRef
  deriving Inhabited

/-- One occurrence of a type or a nested method inside a method body. The kind is a value as given:
one that names no kind is refused when the body is visited. -/
structure BodyReference where
  kind : Document
  type : Option TypeRef
  method : Option MethodRef
  deriving Inhabited

/-- A method, a local function or a lambda. Without declaring text there is no body. -/
structure MethodSymbol where
  id : Document
  name : Document
  file : Document := .null
  returnType : Option TypeRef := none
  parameters : List Parameter := []
  typeParameters : List (Option TypeRef) := []
  body : Option (List BodyReference) := none
  attributes : List (Option TypeRef) := []
  deriving Inhabited

inductive MemberShape where
  | field (type : Option TypeRef)
  | event (type : Option TypeRef)
  | property (type : Option TypeRef) (parameters : List Parameter)
  | bare
  deriving Inhabited

structure MemberSymbol where
  id : Document
  name : Document
  file : Document := .null
  shape : MemberShape
  attributes : List (Option TypeRef) := []
  deriving Inhabited

inductive Member where
  | plain (symbol : MemberSymbol)
  | method (method : MethodRef)
  | nested (type : TypeRef)
  deriving Inhabited

/-- A type with the links that make it up. Where it is declared and whether it comes from a library are
values as given. -/
structure TypeSymbol where
  id : Document
  name : Document
  file : Document := .null
  external : Document := .bool false
  kind : TypeKind := .named
  base : Option TypeRef := none
  interfaces : List (Option TypeRef) := []
  typeParameters : List (Option TypeRef) := []
  constraints : List (Option TypeRef) := []
  typeArguments : List (Option TypeRef) := []
  /-- The generic definition of a closed generic. -/
  originalDefinition : Option TypeRef := none
  element : Option TypeRef := none
  tupleElements : List (Option TypeRef) := []
  signature : Option MethodRef := none
  members : List (Option Member) := []
  attributes : List (Option TypeRef) := []
  deriving Inhabited

structure SymbolTable where
  types : Array TypeSymbol := #[]
  methods : Array MethodSymbol := #[]
  deriving Inhabited

/-- The name to show: the given one, or the id if that counts as unset. -/
def displayName (id name : Document) : Document := if name.isSet then name else id

def checkId (id : Document) : Except Fault Unit := if id.isSet then .ok () else .error .emptyId

/-- Whether a symbol is declared outside of the sources: what is said of it, if that is set, else
whether no file declares it. -/
def externality (external file : Document) : Document :=
  if external.isSet then external else .bool file.isNull

namespace TypeSymbol

def create (id name file external kind : Document) : Except Fault TypeSymbol := do
  checkId id
  match TypeKind.ofValue? kind with
  | none => throw (.unknownTypeKind kind)
  | some kind => pure { id, name := displayName id name, file, external, kind }

end TypeSymbol

namespace MemberSymbol

def create (id name file : Document) (shape : MemberShape)
    (attributes : List (Option TypeRef)) : Except Fault MemberSymbol := do
  checkId id
  pure { id, name := displayName id name, file, shape, attributes }

end MemberSymbol

namespace MethodSymbol

def create (id name file : Document) : Except Fault MethodSymbol := do
  checkId id
  pure { id, name := displayName id name, file }

end MethodSymbol

namespace BodyReference

def create (kind : Document) (type : Option TypeRef) (method : Option MethodRef) :
    Except Fault BodyReference :=
  match ReferenceKind.ofValue? kind with
  | none => .error (.unknownReferenceKind kind)
  | some _ => .ok ⟨kind, type, method⟩

end BodyReference

namespace SymbolTable

/-- Whether a type is declared outside of the sources, following the links to generic definitions for
at most `steps` links. Types without a declaration of their own are. -/
def externalityWithin (table : SymbolTable) : Nat → TypeRef → Except Fault Document
  | 0, _ => .error .endless
  | steps + 1, ref =>
    match table.types[ref]? with
    | none => .ok (.bool true)
    | some symbol =>
      if symbol.kind.isConstructed || symbol.kind = .typeParameter then .ok (.bool true)
      else
        match symbol.originalDefinition with
        | some definition =>
          if definition = ref then .ok (DeclGraph.externality symbol.external symbol.file)
          else table.externalityWithin steps definition
        | none => .ok (DeclGraph.externality symbol.external symbol.file)

/-- Whether a type is declared outside of the sources. A chain of definitions with more links than
there are types comes back to where it was and does not end. -/
def externality (table : SymbolTable) (ref : TypeRef) : Except Fault Document :=
  table.externalityWithin (table.types.size + 1) ref

/-- The generic definition of a closed generic, else the type itself. -/
def definition (table : SymbolTable) (ref : TypeRef) : TypeRef :=
  match table.types[ref]? with
  | some symbol => symbol.originalDefinition.getD ref
  | none => ref

def definitionFile (table : SymbolTable) (ref : TypeRef) : Document :=
  match table.types[table.definition ref]? with
  | some symbol => symbol.file
  | none => .null

end SymbolTable

end DeclGraph
