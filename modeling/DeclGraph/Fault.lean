import DeclGraph.FileTree.Basic
import DeclGraph.Manifest.Defect
import DeclGraph.Text.Lines

/-!
Every way in which an operation of the library can fail, the class of failure a caller tells apart,
and the report.
-/

namespace DeclGraph

inductive FaultKind where
  /-- A value of the wrong shape was given. -/
  | wrongType
  /-- A value of the right shape was given that is not acceptable. -/
  | wrongValue
  /-- A value lacks the part that was asked for. -/
  | noAttribute
  /-- A name stands for nothing. -/
  | noKey
  /-- A position holds nothing. -/
  | noIndex
  /-- A number is beyond what can be held. -/
  | tooLarge
  /-- A value that contains itself was followed without end. -/
  | endless
  /-- Bytes are not UTF-8 text. -/
  | undecodable
  /-- A text has no bytes in UTF-8. -/
  | unencodable
  /-- An analysis failed while it ran. -/
  | failedRun
  | malformedManifest
  | graphUnavailable
  | analysisCancelled
  -- The file tree refused, by cause.
  | tree (cause : TreeFault)
  deriving DecidableEq, Repr, Inhabited

inductive Limit where
  | real
  /-- The number of a character or an open file. -/
  | word
  /-- An integer, which has no infinite values. -/
  | finite
  deriving DecidableEq, Repr, Inhabited

def Limit.message : Limit → String
  | real => "int too large to convert to float"
  | word => "int too large to convert to C int"
  | finite => "cannot convert float infinity to integer"

inductive Fault where
  | absent (argument : String)
  | absentMember (argument : String)
  | emptyPath
  | emptyFilePath
  | outsideRoot (file root : String)
  | emptyId
  | unknownTypeKind (kind : Document)
  | unknownReferenceKind (kind : Document)
  | unhandledReference (kind : Document)
  | notMergeable (kind : String)
  | notGraph (kind : String)
  | notFrontend (kind : String)
  | unreadableManifest (path : Document)
  | manifestNotMapping (path : Document) (kind : String)
  | defectiveManifest (path : String) (defect : Manifest.Defect)
  | manifestMissing (path : Document)
  | unitMissing (path : Document)
  | unitFailed (report : String)
  | foreignUnit (name : String)
  | rootMissing (root : Document)
  | graphUnavailable (root : String)
  | cancelled
  | unknownLogLevel (level : Document)
  | unknownTransport (transport : Document)
  /-- A value of a shape that the operation cannot use. -/
  | wrongShape
  /-- A value of a kind that cannot be looped over. -/
  | notIterable (kind : String)
  /-- A value of a kind that cannot name anything. -/
  | notName (kind : String)
  /-- A value of a kind that cannot spell a path. -/
  | notSpelling (kind : String)
  | notSearchable (kind : String)
  /-- A part was asked of a value of a kind that has none. -/
  | lacks (kind part : String)
  /-- A name stands for nothing. -/
  | noKey (name : Document)
  /-- A position in a text holds nothing. -/
  | noIndex
  /-- A value that is not acceptable, with the report. -/
  | unacceptable (report : String)
  /-- A text does not spell a number, or a number cannot be written. -/
  | numeral (defect : Numeral.Defect)
  /-- There is no such day or moment. -/
  | calendar (defect : Calendar.Defect)
  /-- A number is beyond what can be held. -/
  | tooLarge (limit : Limit)
  /-- A value that contains itself was followed without end. -/
  | endless
  /-- Bytes are not UTF-8. -/
  | undecodable (flaw : Text.Flaw)
  /-- A text holds unpaired surrogates. -/
  | unencodable (flaw : Text.Unpaired)
  | tree (cause : TreeFault) (path : String)
  deriving Inhabited

namespace Fault

def kind : Fault → FaultKind
  | absent _ | absentMember _ | notMergeable _ | notGraph _ | notFrontend _ | foreignUnit _
  | wrongShape | notIterable _ | notName _ | notSpelling _ | notSearchable _ => .wrongType
  | emptyPath | emptyFilePath | outsideRoot .. | emptyId | unknownTypeKind _
  | unknownReferenceKind _ | unhandledReference _ | rootMissing _ | unknownLogLevel _
  | unknownTransport _ | unacceptable _ | numeral _ | calendar _ => .wrongValue
  | unreadableManifest _ | manifestNotMapping .. | defectiveManifest .. => .malformedManifest
  | manifestMissing _ | unitMissing _ => .tree .missing
  | unitFailed _ => .failedRun
  | graphUnavailable _ => .graphUnavailable
  | cancelled => .analysisCancelled
  | lacks .. => .noAttribute
  | noKey _ => .noKey
  | noIndex => .noIndex
  | tooLarge _ => .tooLarge
  | endless => .endless
  | undecodable _ => .undecodable
  | unencodable _ => .unencodable
  | tree cause _ => .tree cause

/-- The report of a failure that the library itself raises. -/
def message? : Fault → Option String
  | absent argument => some (argument ++ " must not be None")
  | absentMember argument => some (argument ++ " must not contain None")
  | emptyPath => some "path must not be empty"
  | emptyFilePath => some "file_path must not be empty"
  | outsideRoot file root =>
    some ("File '" ++ file ++ "' does not belong to project root '" ++ root ++ "'")
  | emptyId => some "symbol_id cannot be empty"
  | unknownTypeKind kind => some ("Unknown type kind: " ++ kind.display)
  | unknownReferenceKind kind => some ("Unknown reference kind: " ++ kind.display)
  | unhandledReference kind => some ("No handler for reference kind: " ++ kind.display)
  | notMergeable kind => some ("Can only merge DependencyGraph, got " ++ kind)
  | notGraph kind => some ("graph must be a DependencyGraph, got " ++ kind)
  | notFrontend kind => some ("resolver must be a SymbolResolver instance, got " ++ kind)
  | unreadableManifest path => some ("Cannot parse manifest " ++ path.display)
  | manifestNotMapping path kind =>
    some ("Manifest " ++ path.display ++ " must contain a mapping, got " ++ kind)
  | defectiveManifest path defect => some (path ++ ": " ++ defect.message)
  | manifestMissing path => some ("Compilation unit manifest not found: " ++ path.display)
  | unitMissing path => some ("no unit " ++ path.display)
  | unitFailed report => some report
  | foreignUnit name => some ("Compilation unit " ++ name ++ " was not opened by ManifestResolver")
  | rootMissing root => some ("Project root does not exist: " ++ root.display)
  | graphUnavailable root =>
    some ("No cached dependency graph for " ++ root
      ++ "; run 'typedep-graph build' first or pass compilation units")
  | cancelled => some "Dependency analysis was cancelled"
  | unknownLogLevel level => some ("Unknown log level: " ++ level.display)
  | unknownTransport transport =>
    some ("Unknown transport " ++ transport.literal
      ++ ", expected one of ('stdio', 'streamable-http', 'sse')")
  | wrongShape | notIterable _ | notName _ | notSpelling _ | notSearchable _ | lacks .. | noKey _
  | noIndex | unacceptable _ | numeral _ | calendar _ | tooLarge _ | endless | undecodable _
  | unencodable _ | tree .. => none

end Fault

def TreeFault.number : TreeFault → Nat
  | missing => 2
  | busy => 16
  | occupied => 17
  | notDirectory => 20
  | isDirectory => 21
  | tooLong => 36
  | holdsNul | unnameable => 0

def TreeFault.words : TreeFault → String
  | missing => "No such file or directory"
  | busy => "Device or resource busy"
  | occupied => "File exists"
  | notDirectory => "Not a directory"
  | isDirectory => "Is a directory"
  | tooLong => "File name too long"
  | holdsNul => "embedded null byte"
  | unnameable => "surrogates not allowed"

/-- The report of any failure, also of those that the library only passes on. -/
def Fault.report (fault : Fault) : String :=
  match fault with
  | .tree .holdsNul _ => TreeFault.holdsNul.words
  | .tree .unnameable path => ((Text.unnameable? path).getD default).message
  | .tree cause path =>
    "[Errno " ++ toString cause.number ++ "] " ++ cause.words ++ ": " ++ Text.quoted path
  | .unacceptable report => report
  | .numeral defect => defect.message
  | .calendar defect => defect.message
  | .notIterable kind => "'" ++ kind ++ "' object is not iterable"
  | .notName kind => "unhashable type: '" ++ kind ++ "'"
  | .notSpelling kind => "expected str, bytes or os.PathLike object, not " ++ kind
  | .notSearchable kind => "expected string or bytes-like object, got '" ++ kind ++ "'"
  | .lacks kind part => "'" ++ kind ++ "' object has no attribute '" ++ part ++ "'"
  | .noKey name => name.literal
  | .noIndex => "string index out of range"
  | .tooLarge limit => limit.message
  | .endless => "maximum recursion depth exceeded"
  | .undecodable flaw => flaw.message
  | .unencodable flaw => flaw.message
  | _ => fault.message?.getD ""

end DeclGraph
