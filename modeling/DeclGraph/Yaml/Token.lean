import DeclGraph.Yaml.Cursor

/-!
The tokens of a YAML text.
-/

namespace DeclGraph.Yaml

inductive Directive where
  | version (major : Nat)
  | tagHandle (handle start : String)
  | unknown
  deriving Inhabited

/-- A tag as written: the handle, if it has one, and the rest. -/
structure TagText where
  handle : Option String
  suffix : String
  deriving Inhabited

inductive Token where
  | streamEnd
  | directive (value : Directive)
  | documentStart
  | documentEnd
  | blockSequenceStart
  | blockMappingStart
  | blockEnd
  | flowSequenceStart
  | flowSequenceEnd
  | flowMappingStart
  | flowMappingEnd
  | flowEntry
  | blockEntry
  | key
  | value
  | alias (name : String)
  | anchor (name : String)
  | tag (text : TagText)
  /-- A scalar, and whether it stands without quotes or indicators. -/
  | scalar (text : String) (plain : Bool)
  deriving Inhabited

end DeclGraph.Yaml
