import DeclGraph.Run
import DeclGraph.Symbol.Basic

/-!
Frontends: what opens a compilation unit and answers questions about its files and symbols. A frontend
is a record of functions, so any source of symbols can be used; two are part of the library.
-/

namespace DeclGraph

structure TypeDeclaration where
  /-- The file that holds the declaration. It need not exist: generated files do not. -/
  file : Document
  name : Document
  /-- What the frontend finds the symbol by. -/
  handle : Document
  deriving Inhabited

structure ManifestUnit where
  /-- The canonical path of the manifest. -/
  path : String
  table : SymbolTable
  /-- Where the symbol of an id stands, in the order of their making. -/
  ids : List (Key × TypeRef)
  sourceFiles : List String
  markupFiles : List String
  /-- Generated files with the markup files they may come from. -/
  markers : List (String × List String)
  /-- Files with the ids declared there. -/
  declarations : List (String × List Document)
  deriving Inhabited

structure TableUnit where
  table : SymbolTable
  keys : List (String × TypeRef)
  /-- The source files, if they are not those of the declarations. -/
  files : Option (List String)
  declarations : List (String × List TypeDeclaration)
  markers : List (String × List String)
  markupFiles : List String
  /-- Listing the source files fails with this report. -/
  failure : Option String
  deriving Inhabited

inductive UnitHandle where
  | manifest (unit : ManifestUnit)
  | table (unit : TableUnit)
  deriving Inhabited

structure CompilationUnit where
  path : String
  name : String
  handle : UnitHandle
  deriving Inhabited

/-- A unit, or whatever else was given in its place. -/
inductive UnitOperand where
  | unit (value : CompilationUnit)
  | other (value : Document)
  deriving Inhabited

def UnitOperand.isNull : UnitOperand → Bool
  | .unit _ => false
  | .other value => value.isNull

structure Frontend where
  /-- The name under which calls are noted. -/
  name : String
  openUnit : Document → Run CompilationUnit
  sourceFiles : CompilationUnit → Except Fault (List String)
  /-- The type declarations in a file, nested ones included. -/
  declarations : CompilationUnit → String → Except Fault (List TypeDeclaration)
  /-- The symbols that links of this unit's types point to. -/
  symbols : CompilationUnit → SymbolTable
  -- The symbol of a declaration, if it has one.
  symbolOf : CompilationUnit → TypeDeclaration → Except Fault (Option TypeRef)
  /-- The markup files that a generated file may come from. -/
  markers : CompilationUnit → String → Except Fault (List String)
  markupFiles : CompilationUnit → Except Fault (List String)

namespace Frontend

def openNoted (frontend : Frontend) (path : Document) : Run CompilationUnit := do
  Run.note (.opened frontend.name path)
  frontend.openUnit path

def listNoted (frontend : Frontend) (unit : CompilationUnit) : Run (List String) := do
  Run.note (.listed frontend.name unit.path)
  Run.ofExcept (frontend.sourceFiles unit)

end Frontend

end DeclGraph
