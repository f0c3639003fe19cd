import DeclGraph.Manifest.Defect
import DeclGraph.Symbol.Basic

/-!
Type references of a manifest: an id, or a mapping that builds a type from others. A reference is read
without looking at any symbol; what is wrong with it is kept in place and reported when it is resolved.
-/

namespace DeclGraph.Manifest

/-- Nothing at all, an id, a built type, or something that is no reference. Where a list of references
should stand and something else does, `instead` is its kind. -/
inductive Reference where
  | absent
  | named (id : String)
  | generic (definition : Reference) (instead : Option String) (arguments : List Reference)
    (source : Document)
  | array (element : Reference) (source : Document)
  | pointer (element : Reference) (source : Document)
  | tuple (instead : Option String) (elements : List Reference)
  | functionPointer (returnType : Reference) (instead : Option String)
    (parameters : List Reference)
  | defective (defect : Defect)
  /-- A built type that contains itself. -/
  | endless
  deriving Inhabited

namespace Reference

def ofScalar : Scalar → Reference
  | .null => .absent
  | .text id => .named id
  | value => .defective (.invalidReference (.scalar value))

structure Part where
  value : Document
  one : Reference
  many : Option (List Reference)
  deriving Inhabited

def part (parts : List (Scalar × Part)) (name : String) : Part :=
  ((parts.find? fun entry => entry.1.key = Key.text name).map (·.2)).getD ⟨.null, .absent, none⟩

/-- The references in a list part, none if it is unset, and the kind of a part that cannot be looped
over. -/
def listOf (part : Part) : Option String × List Reference :=
  if part.value.isSet then
    match part.many with
    | some references => (none, references)
    | none => (some part.value.kindWord, [])
  else (none, [])

def ofParts (source : Document) (parts : List (Scalar × Part)) : Reference :=
  if parts.any fun entry => entry.1.key = Key.text "definition" then
    let (instead, arguments) := listOf (part parts "arguments")
    .generic (part parts "definition").one instead arguments source
  else
    match (TypeKind.ofValue? (part parts "kind").value) with
    | some .array => .array (part parts "element").one source
    | some .pointer => .pointer (part parts "element").one source
    | some .tuple =>
      let (instead, elements) := listOf (part parts "elements")
      .tuple instead elements
    | some .functionPointer =>
      let (instead, parameters) := listOf (part parts "parameters")
      .functionPointer (part parts "return_type").one instead parameters
    | _ => .defective (.unknownReference source)

/-- What a place inside a mapping stands for that refers to a value around it: a mapping would be
built without end, anything else is no reference. -/
def ofAround (around : Document) : Reference :=
  if around.entries?.isSome then .endless else .defective (.invalidReference around)

/-- What a loop over a value around the place meets. A list is met again inside itself. -/
def manyOfAround (around : Document) : Option (List Reference) :=
  match around.entries? with
  | some entries => some (entries.map fun entry => ofScalar entry.1)
  | none => some [.endless]

mutual

/-- A value as a reference. `around` holds the labelled values that it stands in, and `source` is the
value as reports show it, if that is not the value itself. -/
def ofValue (around : List (Nat × Document)) (source : Option Document) : Document → Reference
  | .scalar value => ofScalar value
  | .list items => .defective (.invalidReference (source.getD (.filled around (.list items))))
  | .map entries =>
    ofParts (source.getD (.filled around (.map entries))) (partsOf around entries)
  | .pair first second =>
    .defective (.invalidReference (source.getD (.filled around (.pair first second))))
  | .set members => .defective (.invalidReference (.set members))
  | .labelled label content =>
    let closed := Document.filled around (.labelled label content)
    ofValue ((label, closed) :: around) (some closed) content
  | .again label => ofAround ((around.lookup label).getD (.again label))

def manyOf (around : List (Nat × Document)) : Document → Option (List Reference)
  | .scalar (.text value) => some (value.toList.map fun c => .named (String.singleton c))
  | .scalar (.bytes value) => some (value.map fun byte => ofScalar (.int (Int.ofNat byte.toNat)))
  | .scalar _ => none
  | .list items => some (itemsOf around items)
  | .map entries => some (entries.map fun entry => ofScalar entry.1)
  | .pair first second => some [ofValue around none first, ofValue around none second]
  | .set members => some (members.map ofScalar)
  | .labelled label content =>
    manyOf ((label, Document.filled around (.labelled label content)) :: around) content
  | .again label => manyOfAround ((around.lookup label).getD (.again label))

def itemsOf (around : List (Nat × Document)) : List Document → List Reference
  | [] => []
  | item :: rest => ofValue around none item :: itemsOf around rest

def partsOf (around : List (Nat × Document)) : List (Scalar × Document) → List (Scalar × Part)
  | [] => []
  | (name, value) :: rest =>
    (name, ⟨value, ofValue around none value, manyOf around value⟩) :: partsOf around rest

end

def ofDocument (value : Document) : Reference := ofValue [] none value

end Reference

end DeclGraph.Manifest
