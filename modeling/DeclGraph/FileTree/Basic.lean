import DeclGraph.Path.Trail
import DeclGraph.Text.Surrogate

/-!
A tree of directories and files, addressed by absolute paths. Every name on the way to an entry has to
be a directory; `..` leads back up and the root is its own parent. One or two leading slashes name the
same root. There are no links and no permissions: an operation fails only for what stands in its way.
-/

namespace DeclGraph

inductive FileEntry where
  | directory
  | file (content : ByteArray)
  deriving Inhabited

-- Files are compared by their bytes as an array, in whatever way byte arrays themselves are compared.
instance : DecidableEq FileEntry
  | .directory, .directory => .isTrue rfl
  | .file a, .file b =>
    decidable_of_iff (a.data = b.data)
      ⟨fun same => congrArg _ (ByteArray.ext same), fun same => by cases same; rfl⟩
  | .directory, .file _ => .isFalse nofun
  | .file _, .directory => .isFalse nofun

inductive TreeFault where
  /-- Nothing is there. -/
  | missing
  /-- Something is there already. -/
  | occupied
  /-- A name on the way, or the place itself, is not a directory. -/
  | notDirectory
  /-- A directory stands where a file is needed. -/
  | isDirectory
  /-- The place is a step up and cannot be replaced. -/
  | busy
  /-- A name or the whole path is longer than the tree allows. -/
  | tooLong
  | holdsNul
  /-- A name has no bytes. -/
  | unnameable
  deriving DecidableEq, Repr, Inhabited

/-- The entries below the root, each under its list of names. -/
structure FileTree where
  entries : List (List String × FileEntry)
  deriving Inhabited

namespace FileTree

/-- The entry at a place; the root is always a directory. -/
def entry? (tree : FileTree) (place : List String) : Option FileEntry :=
  if place.isEmpty then some .directory
  else (tree.entries.find? fun entry => entry.1 = place).map (·.2)

def IsDirectoryAt (tree : FileTree) (place : List String) : Prop :=
  tree.entry? place = some .directory

instance (tree : FileTree) (place : List String) : Decidable (tree.IsDirectoryAt place) :=
  inferInstanceAs (Decidable (_ = _))

def erase (tree : FileTree) (place : List String) : FileTree :=
  ⟨tree.entries.filter fun entry => entry.1 ≠ place⟩

-- The tree with an entry at a place, in place of what was there.
def put (tree : FileTree) (place : List String) (entry : FileEntry) : FileTree :=
  ⟨(place, entry) :: (tree.erase place).entries⟩

def nameLimit : Nat := 255

def pathLimit : Nat := 4095

def enter (tree : FileTree) (place : List String) : Except TreeFault Unit :=
  match tree.entry? place with
  | some .directory => .ok ()
  | some (.file _) => .error .notDirectory
  | none => .error .missing

/-- Follows segments from a place. Each segment starts from a directory; the last place may be free. -/
def walk (tree : FileTree) (place : List String) : List String → Except TreeFault (List String)
  | [] => .ok place
  | segment :: rest =>
    match tree.enter place with
    | .error fault => .error fault
    | .ok () =>
      if nameLimit < segment.utf8ByteSize then .error .tooLong
      else tree.walk (Path.step place segment) rest

def checkText (path : String) : Except TreeFault Unit :=
  if (Text.unnameable? path).isSome then .error .unnameable
  else if '\x00' ∈ path.toList then .error .holdsNul
  else if pathLimit < path.utf8ByteSize then .error .tooLong
  else if path = "" then .error .missing
  else .ok ()

/-- The place that an absolute path names, whether or not something is there. -/
def place (tree : FileTree) (path : String) : Except TreeFault (List String) := do
  checkText path
  tree.walk [] (Path.segments path)

def look (tree : FileTree) (path : String) : Except TreeFault FileEntry := do
  let place ← tree.place path
  match tree.entry? place with
  | some entry => pure entry
  | none => throw .missing

def isFile (tree : FileTree) (path : String) : Bool :=
  match tree.look path with
  | .ok (.file _) => true
  | _ => false

def isDirectory (tree : FileTree) (path : String) : Bool :=
  match tree.look path with
  | .ok .directory => true
  | _ => false

/-- The entry that a path names, or nothing if there is none; a path that is too long is refused. -/
def probe (tree : FileTree) (path : String) : Except TreeFault (Option FileEntry) :=
  match tree.look path with
  | .ok entry => .ok (some entry)
  | .error .tooLong => .error .tooLong
  | .error _ => .ok none

def read (tree : FileTree) (path : String) : Except TreeFault ByteArray := do
  match ← tree.look path with
  | .file content => pure content
  | .directory => throw .isDirectory

def makeDirectory (tree : FileTree) (path : String) : Except TreeFault FileTree := do
  let place ← tree.place path
  match tree.entry? place with
  | some _ => throw .occupied
  | none => pure (tree.put place .directory)

def ensureDirectory (tree : FileTree) (path : String) : Except TreeFault FileTree :=
  match tree.makeDirectory path with
  | .ok made => .ok made
  | .error fault => if tree.isDirectory path then .ok tree else .error fault

def fullText (cwd : String) (trail : Path.Trail) : String := Path.absolute cwd trail.text

/-- Makes a directory and the missing directories above it, as far up as there are `names`. Directories
that were made before a refusal stay. -/
def makeDirectories (cwd root : String) : List String → FileTree → Except TreeFault Unit × FileTree
  | names, tree =>
    let path := fullText cwd ⟨root, names⟩
    match tree.makeDirectory path with
    | .ok made => (.ok (), made)
    | .error .missing =>
      if bare : names = [] then (.error .missing, tree)
      else
        have : names.dropLast.length < names.length := by
          have := List.length_pos_iff.mpr bare
          simp only [List.length_dropLast]
          omega
        match makeDirectories cwd root names.dropLast tree with
        | (.error fault, above) => (.error fault, above)
        | (.ok (), above) =>
          match above.ensureDirectory path with
          | .ok made => (.ok (), made)
          | .error fault => (.error fault, above)
    | .error fault => (if tree.isDirectory path then .ok () else .error fault, tree)
termination_by names => names.length

def endsUp (path : String) : Bool := (Path.segments path).getLast? = some ".."

/-- Puts a file where a path points, in place of a file that is there. -/
def writeFile (tree : FileTree) (path : String) (content : ByteArray) : Except TreeFault FileTree := do
  let place ← tree.place path
  match tree.entry? place with
  | some .directory => throw .isDirectory
  | _ => pure (tree.put place (.file content))

def replace (tree : FileTree) (source target : String) : Except TreeFault FileTree := do
  let content ← tree.read source
  let sourcePlace ← tree.place source
  let place ← tree.place target
  if endsUp target then throw .busy
  match tree.entry? place with
  | some .directory => throw .isDirectory
  | _ => pure ((tree.erase sourcePlace).put place (.file content))

def unlink (tree : FileTree) (path : String) : Except TreeFault FileTree := do
  let place ← tree.place path
  match tree.entry? place with
  | none => throw .missing
  | some .directory => throw .isDirectory
  | some (.file _) => pure (tree.erase place)

def removeAll (tree : FileTree) (path : String) : Except TreeFault FileTree := do
  let place ← tree.place path
  match tree.entry? place with
  | none => throw .missing
  | some _ => pure ⟨tree.entries.filter fun entry => !place.isPrefixOf entry.1⟩

def plant (tree : FileTree) (names : List String) (entry : FileEntry) : FileTree :=
  let above := (List.range names.length).map names.take
  let made := above.foldl (fun tree place =>
    match tree.entry? place with
    | some .directory => tree
    | _ => tree.put place .directory) tree
  match entry, names with
  | _, [] => made
  | .directory, _ => if made.entry? names = some .directory then made else made.put names .directory
  | .file _, _ => made.put names entry

def listBelow (tree : FileTree) (path : String) : Except TreeFault (List String) := do
  let place ← tree.place path
  match tree.entry? place with
  | none => throw .missing
  | some (.file _) => throw .notDirectory
  | some .directory =>
    let below := tree.entries.filter fun entry => place.isPrefixOf entry.1 ∧ entry.1 ≠ place
    let shown := below.map fun entry =>
      let name := "/".intercalate (entry.1.drop place.length)
      match entry.2 with
      | .directory => name ++ "/"
      | .file _ => name
    pure (shown.mergeSort fun a b => decide (a ≤ b))

end FileTree

end DeclGraph
