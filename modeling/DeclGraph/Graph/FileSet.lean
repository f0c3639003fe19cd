/-!
Sets of files as strictly increasing lists of paths, so that equal sets are equal lists.
-/

namespace DeclGraph

/-- A set of paths, listed in increasing order without repetition. -/
abbrev FileSet := List String

namespace FileSet

def insert (set : FileSet) (file : String) : FileSet :=
  match set with
  | [] => [file]
  | first :: rest =>
    if file < first then file :: first :: rest
    else if file = first then first :: rest
    else first :: insert rest file

def insertAll (set : FileSet) (files : List String) : FileSet := files.foldl insert set

def ofList (files : List String) : FileSet := insertAll [] files

end FileSet

end DeclGraph
