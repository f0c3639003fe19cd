import DeclGraph.Graph.FileSet
import DeclGraph.Symbol.Basic

/-!
Walks everything that a declared type refers to and collects the files that declare it. Visits are
marked by role and id: a type first met as a plain reference is still entered when it turns up as a
nested type. The walk keeps the marks that are still to be given; each visit that is expanded uses up
one of them, so the walk ends on every table, cyclic or not.
-/

namespace DeclGraph

inductive Role where
  | root
  | member
  | method
  | type
  deriving DecidableEq, Repr, Inhabited

abbrev Mark := Role × Key

inductive Visit where
  | root (type : TypeRef)
  | member (symbol : MemberSymbol)
  | memberMethod (method : MethodRef)
  | method (method : MethodRef)
  | type (type : TypeRef)
  /-- The walk fails when it gets here. -/
  | fail (fault : Fault)

namespace SymbolTable

def visitType (ref : Option TypeRef) : List Visit := (ref.map Visit.type).toList

def visitMethod (ref : Option MethodRef) : List Visit := (ref.map Visit.method).toList

-- Visits of the types that a type parameter is constrained to; the parameter has to be there.
def visitConstraints (table : SymbolTable) (parameter : Option TypeRef) : List Visit :=
  match parameter.bind fun ref => table.types[ref]? with
  | none => [.fail (.lacks Document.null.kindWord "constraint_types")]
  | some symbol => symbol.constraints.flatMap visitType

def visitMember : Option Member → List Visit
  | none => []
  | some (.plain symbol) => [.member symbol]
  | some (.method ref) => [.memberMethod ref]
  | some (.nested ref) => [.root ref]

def rootParts (table : SymbolTable) (symbol : TypeSymbol) : List Visit :=
  visitType symbol.base
    ++ symbol.interfaces.flatMap visitType
    ++ symbol.typeParameters.flatMap table.visitConstraints
    ++ symbol.typeArguments.flatMap visitType
    ++ symbol.members.flatMap visitMember
    ++ symbol.attributes.flatMap visitType

def memberParts (symbol : MemberSymbol) : List Visit :=
  (match symbol.shape with
    | .field type => visitType type
    | .event type => visitType type
    | .property type parameters =>
      visitType type ++ parameters.flatMap fun parameter => visitType parameter.type
    | .bare => [])
    ++ symbol.attributes.flatMap visitType

def referenceParts (reference : BodyReference) : List Visit :=
  match reference.kind.key? with
  | none => [.fail (.notName reference.kind.kindWord)]
  | some _ =>
    match ReferenceKind.ofValue? reference.kind with
    | none => [.fail (.unhandledReference reference.kind)]
    | some .localFunction => visitMethod reference.method ++ visitType reference.type
    | some .lambda => visitMethod reference.method
    | some _ => visitType reference.type

def methodParts (table : SymbolTable) (symbol : MethodSymbol) : List Visit :=
  visitType symbol.returnType
    ++ symbol.parameters.flatMap (fun parameter =>
      visitType parameter.type ++ visitType parameter.defaultType)
    ++ symbol.typeParameters.flatMap table.visitConstraints
    ++ (symbol.body.getD []).flatMap referenceParts

def signatureParts (table : SymbolTable) (ref : Option MethodRef) : List Visit :=
  match ref.bind fun ref => table.methods[ref]? with
  | none => []
  | some symbol =>
    visitType symbol.returnType ++ symbol.parameters.flatMap fun parameter => visitType parameter.type

/-- Visits for the types that a type is built from. A type parameter is not unwrapped. -/
def typeParts (table : SymbolTable) (symbol : TypeSymbol) : List Visit :=
  if symbol.kind = .typeParameter then []
  else
    symbol.typeArguments.flatMap visitType
      ++ visitType symbol.element
      ++ symbol.tupleElements.flatMap visitType
      ++ table.signatureParts symbol.signature

-- What a visit is marked by, if it is marked at all.
def markOf (table : SymbolTable) : Visit → Option (Role × Document)
  | .root ref => (table.types[ref]?).map fun symbol => (.root, symbol.id)
  | .member symbol => some (.member, symbol.id)
  | .memberMethod ref => (table.methods[ref]?).map fun symbol => (.member, symbol.id)
  | .method ref => (table.methods[ref]?).map fun symbol => (.method, symbol.id)
  | .type ref => (table.types[ref]?).map fun symbol => (.type, symbol.id)
  | .fail _ => none

def partsOf (table : SymbolTable) : Visit → List Visit
  | .root ref => ((table.types[ref]?).map table.rootParts).getD []
  | .member symbol => memberParts symbol
  | .memberMethod ref =>
    ((table.methods[ref]?).map fun symbol =>
      .method ref :: symbol.attributes.flatMap visitType).getD []
  | .method ref => ((table.methods[ref]?).map table.methodParts).getD []
  | .type ref => ((table.types[ref]?).map table.typeParts).getD []
  | .fail _ => []

/-- The file that a visit of a type contributes, unless the type comes from outside of the sources. -/
def typeFile (table : SymbolTable) (ref : TypeRef) : Except Fault (Option Document) := do
  let external ← table.externality ref
  pure (if external.isSet then none else (table.definitionFile ref).ifSet)

def fileOf (table : SymbolTable) : Visit → Except Fault (Option Document)
  | .type ref => table.typeFile ref
  | _ => .ok none

abbrev Reported := List Document

/-- Adds the file that a visit contributes. What cannot name anything is no file. -/
def addFile (found : Reported) : Option Document → Except Fault Reported
  | none => .ok found
  | some file =>
    match file.key? with
    | none => .error (.notName file.kindWord)
    | some key => .ok (if found.any fun other => other.key? = some key then found else found ++ [file])

def memberMarks (table : SymbolTable) : Option Member → List Mark
  | some (.plain symbol) => (symbol.id.key?.map fun key => (Role.member, key)).toList
  | some (.method ref) =>
    match (table.methods[ref]?).bind fun symbol => symbol.id.key? with
    | some key => [(.member, key)]
    | none => []
  | _ => []

def typeMarks (table : SymbolTable) (symbol : TypeSymbol) : List Mark :=
  (match symbol.id.key? with
    | some key => [(.root, key), (.type, key)]
    | none => [])
    ++ symbol.members.flatMap table.memberMarks

def marks (table : SymbolTable) : List Mark :=
  (table.types.toList.flatMap table.typeMarks
    ++ table.methods.toList.filterMap fun symbol => symbol.id.key?.map fun key => (Role.method, key)).eraseDups

/-- Visits one thing after another. `unmarked` holds the marks not yet given, `found` the files. -/
def walk (table : SymbolTable) (unmarked : List Mark) (agenda : List Visit) (found : Reported) :
    Except Fault Reported :=
  match agenda with
  | [] => .ok found
  | .fail fault :: _ => .error fault
  | visit :: rest =>
    match table.markOf visit with
    | none => table.walk unmarked rest found
    | some (role, id) =>
      match id.key? with
      | none => .error (.notName id.kindWord)
      | some key =>
        if _present : (role, key) ∈ unmarked then
          match table.fileOf visit >>= addFile found with
          | .error fault => .error fault
          | .ok found => table.walk (unmarked.erase (role, key)) (table.partsOf visit ++ rest) found
        else table.walk unmarked rest found
termination_by (unmarked.length, agenda.length)
decreasing_by
  · exact Prod.Lex.right _ (by simp)
  · refine Prod.Lex.left _ _ ?_
    have := List.length_pos_of_mem _present
    rw [List.length_erase_of_mem _present]
    omega
  · exact Prod.Lex.right _ (by simp)

/-- The walk with a bound on its visits, which can be evaluated. -/
def walkWithin (table : SymbolTable) : Nat → List Mark → List Visit → Reported → Option (Except Fault Reported)
  | 0, _, _, _ => none
  | _ + 1, _, [], found => some (.ok found)
  | _ + 1, _, .fail fault :: _, _ => some (.error fault)
  | visits + 1, unmarked, visit :: rest, found =>
    match table.markOf visit with
    | none => table.walkWithin visits unmarked rest found
    | some (role, id) =>
      match id.key? with
      | none => some (.error (.notName id.kindWord))
      | some key =>
        if (role, key) ∈ unmarked then
          match table.fileOf visit >>= addFile found with
          | .error fault => some (.error fault)
          | .ok found => table.walkWithin visits (unmarked.erase (role, key)) (table.partsOf visit ++ rest) found
        else table.walkWithin visits unmarked rest found

def dependencies (table : SymbolTable) (root : TypeRef) : Except Fault Reported :=
  table.walk table.marks [.root root] []

end SymbolTable

end DeclGraph
