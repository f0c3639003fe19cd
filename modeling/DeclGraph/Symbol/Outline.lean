import DeclGraph.Symbol.Basic

/-!
Symbols written out as documents. Links are given by the ids of the symbols they point to, and what is
absent or empty is left out.
-/

namespace DeclGraph

namespace SymbolTable

def idAt (table : SymbolTable) (ref : Option TypeRef) : Document :=
  match ref.bind fun ref => table.types[ref]? with
  | some symbol => symbol.id
  | none => .null

def idsAt (table : SymbolTable) (refs : List (Option TypeRef)) : Document :=
  .list (refs.map table.idAt)

def present (fields : List (String × Document)) : List (String × Document) :=
  fields.filter fun field =>
    match field.2 with
    | .scalar .null => false
    | .list [] => false
    | _ => true

def parameterOutline (table : SymbolTable) (parameter : Parameter) : Document :=
  .object (present [("type", table.idAt parameter.type), ("name", parameter.name),
    ("default", table.idAt parameter.defaultType)])

def methodFields (table : SymbolTable) : Nat → MethodSymbol → List (String × Document)
  | 0, symbol => [("id", symbol.id), ("name", symbol.name)]
  | depth + 1, symbol =>
    let reference (reference : BodyReference) : Document :=
      let nested := match reference.method.bind fun ref => table.methods[ref]? with
        | some inner => Document.object (table.methodFields depth inner)
        | none => .null
      .object (present [("kind", reference.kind), ("type", table.idAt reference.type),
        ("method", nested)])
    [("id", symbol.id), ("name", symbol.name)]
      ++ present [("return_type", table.idAt symbol.returnType),
        ("parameters", .list (symbol.parameters.map table.parameterOutline)),
        ("type_parameters", table.idsAt symbol.typeParameters),
        ("attributes", table.idsAt symbol.attributes)]
      ++ (symbol.body.map fun references => ("body", Document.list (references.map reference))).toList

/-- The fields of a whole method. A method made before another cannot contain it, so the number of
methods bounds the depth. -/
def methodOutline (table : SymbolTable) (symbol : MethodSymbol) : List (String × Document) :=
  table.methodFields (table.methods.size + 1) symbol

def shapeWord : MemberShape → String
  | .field _ => "field"
  | .event _ => "event"
  | .property .. => "property"
  | .bare => ""

def shapeParts : MemberShape → Option TypeRef × List Parameter
  | .field type => (type, [])
  | .event type => (type, [])
  | .property type parameters => (type, parameters)
  | .bare => (none, [])

def memberFields (table : SymbolTable) (symbol : MemberSymbol) : List (String × Document) :=
  let (type, parameters) := shapeParts symbol.shape
  [("member", .text (shapeWord symbol.shape)), ("id", symbol.id), ("name", symbol.name)]
    ++ present [("type", table.idAt type),
      ("parameters", .list (parameters.map table.parameterOutline)),
      ("attributes", table.idsAt symbol.attributes)]

def memberOutline (table : SymbolTable) : Option Member → Document
  | none => .null
  | some (.plain symbol) => .object (table.memberFields symbol)
  | some (.method ref) =>
    match table.methods[ref]? with
    | some symbol => .object (("member", .text "method") :: table.methodOutline symbol)
    | none => .null
  | some (.nested ref) =>
    .object [("member", .text "nested_type"), ("type", table.idAt (some ref))]

def typeFields (table : SymbolTable) (ref : TypeRef) (symbol : TypeSymbol) :
    List (String × Document) :=
  let signature := match symbol.signature.bind fun ref => table.methods[ref]? with
    | some method => Document.object (table.methodOutline method)
    | none => .null
  [("id", symbol.id), ("name", symbol.name), ("kind", .text symbol.kind.word),
    ("is_external", (table.externality ref).toOption.getD (.bool true)), ("is_constructed", .bool symbol.kind.isConstructed),
    ("definition", table.idAt (some (table.definition ref)))]
    ++ present [("file", symbol.file),
      ("external", if symbol.external.isSet then symbol.external else .null),
      ("base", table.idAt symbol.base), ("interfaces", table.idsAt symbol.interfaces),
      ("type_parameters", table.idsAt symbol.typeParameters),
      ("constraints", table.idsAt symbol.constraints),
      ("type_arguments", table.idsAt symbol.typeArguments),
      ("element", table.idAt symbol.element), ("tuple", table.idsAt symbol.tupleElements),
      ("signature", signature), ("members", .list (symbol.members.map table.memberOutline)),
      ("attributes", table.idsAt symbol.attributes)]

end SymbolTable

end DeclGraph
