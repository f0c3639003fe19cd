/-!
Absolute and relative paths as texts. `/` separates names; a path that starts with `/` is absolute.
A canonical path is absolute and free of empty, `.` and `..` names. Exactly two leading slashes are a
root of their own and are kept; any other number counts as one.
-/

namespace DeclGraph.Path

/-- The pieces of a text between separators: one more than there are separators. -/
def pieces (separator : Char) : List Char → List (List Char)
  | [] => [[]]
  | c :: rest =>
    if c = separator then [] :: pieces separator rest
    else
      match pieces separator rest with
      | [] => [[c]]
      | first :: more => (c :: first) :: more

def segments (path : String) : List String := (pieces '/' path.toList).map String.ofList

def isAbsolute (path : String) : Bool := path.toList.head? = some '/'

def endsInSlash (path : String) : Bool := path.toList.getLast? = some '/'

/-- A path seen from a base: an absolute path stands for itself. -/
def joinTo (base path : String) : String :=
  if isAbsolute path then path
  else if base = "" ∨ endsInSlash base then base ++ path
  else base ++ "/" ++ path

def joinAll (base : String) (names : List String) : String := names.foldl joinTo base

def absolute (cwd path : String) : String := joinTo cwd path

structure Location where
  /-- The root is written with two slashes. -/
  doubled : Bool
  names : List String
  deriving DecidableEq, Repr, Inhabited

/-- One step down, in place, or up; the root is its own parent. -/
def step (names : List String) (segment : String) : List String :=
  if segment = "" ∨ segment = "." then names
  else if segment = ".." then names.dropLast
  else names ++ [segment]

def follow (segments : List String) : List String := segments.foldl step []

/-- Exactly two slashes lead the text. -/
def isDoubled (path : String) : Bool :=
  match path.toList with
  | '/' :: '/' :: '/' :: _ => false
  | '/' :: '/' :: _ => true
  | _ => false

namespace Location

def ofText (path : String) : Location := ⟨isDoubled path, follow (segments path)⟩

def text (place : Location) : String :=
  (if place.doubled then "//" else "/") ++ "/".intercalate place.names

end Location

def normalize (cwd path : String) : String := (Location.ofText (absolute cwd path)).text

def stripSlashes (cs : List Char) : List Char := (cs.reverse.dropWhile (· = '/')).reverse

def isBelow (root path : String) : Bool :=
  (stripSlashes root.toList ++ ['/']).isPrefixOf path.toList

def names (path : String) : List String := (segments path).filter (· ≠ "")

def splitCommon : List String → List String → List String × List String
  | a :: as, b :: bs => if a = b then splitCommon as bs else (a :: as, b :: bs)
  | as, bs => (as, bs)

-- The way from a canonical root to a canonical path, in names.
def wayFrom (root path : String) : List String :=
  let (up, down) := splitCommon (names root) (names path)
  up.map (fun _ => "..") ++ down

def forwardSlashes (text : String) : String :=
  String.ofList (text.toList.map fun c => if c = '\\' then '/' else c)

def relativeTo (root path : String) : String :=
  match wayFrom root path with
  | [] => "."
  | way => forwardSlashes ("/".intercalate way)

def splitLast (cs : List Char) : List Char × List Char :=
  ((cs.reverse.dropWhile (· ≠ '/')).reverse, (cs.reverse.takeWhile (· ≠ '/')).reverse)

/-- The directory part of a path. Slashes at its end are dropped unless there is nothing else. -/
def directory (path : String) : String :=
  let head := (splitLast path.toList).1
  let bare := stripSlashes head
  String.ofList (if bare.isEmpty then head else bare)

def fileName (path : String) : String := String.ofList (splitLast path.toList).2

end DeclGraph.Path
