import DeclGraph.Document.Display

/-!
What can be wrong with a manifest, and how it is reported.
-/

namespace DeclGraph.Manifest

inductive Defect where
  | notPath (value : Document)
  | typesNotList
  | typeWithoutId (entry : Document)
  | parameterWithoutId (entry : Document)
  | duplicateId (id : Document)
  | declarationsNotList (file : Scalar)
  | invalidReference (reference : Document)
  | unknownReference (reference : Document)
  | genericWithoutDefinition (reference : Document)
  | withoutElement (kind : String) (reference : Document)
  | invalidMember (owner entry : Document)
  | unknownMemberKind (kind owner : Document)
  | nestedWithoutType (owner : Document)
  | invalidBodyReference (method entry : Document)
  | invalidBodyMethod (kind : String) (method : Document)
  deriving Inhabited

def Defect.message : Defect → String
  | .notPath value => "expected a file path, got " ++ value.literal
  | .typesNotList => "'types' must be a list"
  | .typeWithoutId entry => "type entry without id: " ++ entry.literal
  | .parameterWithoutId entry => "type parameter without id: " ++ entry.literal
  | .duplicateId id => "duplicate type id " ++ id.display
  | .declarationsNotList file =>
    "declarations of " ++ (Document.scalar file).display ++ " must be a list"
  | .invalidReference reference => "invalid type reference " ++ reference.literal
  | .unknownReference reference => "unknown type reference " ++ reference.literal
  | .genericWithoutDefinition reference => "generic without definition: " ++ reference.literal
  | .withoutElement kind reference => kind ++ " without element: " ++ reference.literal
  | .invalidMember owner entry => "invalid member of " ++ owner.display ++ ": " ++ entry.literal
  | .unknownMemberKind kind owner =>
    "unknown member kind " ++ kind.literal ++ " in " ++ owner.display
  | .nestedWithoutType owner => "nested type of " ++ owner.display ++ " without type"
  | .invalidBodyReference method entry =>
    "invalid body reference in " ++ method.display ++ ": " ++ entry.literal
  | .invalidBodyMethod kind method => "invalid " ++ kind ++ " in " ++ method.display

def Defect.values : Defect → List Document
  | .typesNotList => []
  | .notPath value | .typeWithoutId value | .parameterWithoutId value | .duplicateId value
  | .invalidReference value | .unknownReference value | .genericWithoutDefinition value
  | .withoutElement _ value | .nestedWithoutType value | .invalidBodyMethod _ value => [value]
  | .declarationsNotList file => [.scalar file]
  | .invalidMember owner value | .invalidBodyReference owner value => [owner, value]
  | .unknownMemberKind kind owner => [kind, owner]

end DeclGraph.Manifest
