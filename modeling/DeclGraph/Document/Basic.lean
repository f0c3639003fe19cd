import DeclGraph.Binary64.Basic
import DeclGraph.Calendar.Basic

/-!
Documents: the nested values that manifests, configurations and saved graphs are read into. Keys of a
mapping are scalars; two keys name the same entry when they are equal as numbers or as texts, so `1`,
`1.0` and `true` are one key.

A document can contain itself. Such a document is written out once; every list and mapping in it has a
label, and `again` stands for the one around it that has the label. `opened` gives the content of a
labelled value with each such place filled in, so whatever looks at the parts of a value opens it first.
-/

namespace DeclGraph

inductive Scalar where
  | null
  | bool (value : Bool)
  | int (value : Int)
  | real (value : Binary64)
  | text (value : String)
  | bytes (value : List UInt8)
  | day (value : Calendar.Day)
  | moment (value : Calendar.Moment)
  deriving DecidableEq, Repr, Inhabited

inductive Key where
  | null
  | integer (value : Int)
  | real (value : Binary64)
  | text (value : String)
  | bytes (value : List UInt8)
  | day (number : Nat)
  /-- A moment by its own clock. -/
  | clock (microseconds : Int)
  /-- A moment in universal time. -/
  | instant (microseconds : Int)
  deriving DecidableEq, Repr, Inhabited

/-- Booleans count as the integers 0 and 1, a real that equals an integer counts as it, and a moment
whose clock is tied to universal time counts as its instant. -/
def Scalar.key : Scalar → Key
  | .null => .null
  | .bool value => .integer (if value then 1 else 0)
  | .int value => .integer value
  | .real value =>
    match value.toInt? with
    | some integer => .integer integer
    | none => .real value
  | .text value => .text value
  | .bytes value => .bytes value
  | .day value => .day value.number
  | .moment value =>
    match value.instant? with
    | some instant => .instant instant
    | none => .clock value.clock

/-- A nested value. Entries of a mapping keep the order in which their keys first occurred. -/
inductive Document where
  | scalar (value : Scalar)
  | list (items : List Document)
  | map (entries : List (Scalar × Document))
  | pair (first second : Document)
  /-- Members without an order of their own. -/
  | set (members : List Scalar)
  /-- A value that can be referred to from inside. -/
  | labelled (label : Nat) (content : Document)
  /-- The value around this place that has the label. -/
  | again (label : Nat)
  deriving Repr, Inhabited

abbrev Entries := List (Scalar × Document)

namespace Document

@[match_pattern] abbrev null : Document := .scalar .null

@[match_pattern] abbrev text (value : String) : Document := .scalar (.text value)

@[match_pattern] abbrev bool (value : Bool) : Document := .scalar (.bool value)

@[match_pattern] abbrev int (value : Int) : Document := .scalar (.int value)

abbrev nat (value : Nat) : Document := .scalar (.int (Int.ofNat value))

@[match_pattern] abbrev real (value : Binary64) : Document := .scalar (.real value)

def key? : Document → Option Key
  | .scalar value => some value.key
  | _ => none

/-- Nothing, zero and whatever is empty count as unset. -/
def isSet : Document → Bool
  | .scalar .null => false
  | .scalar (.bool value) => value
  | .scalar (.int value) => value ≠ 0
  | .scalar (.real value) => value.isNonzero
  | .scalar (.text value) => value ≠ ""
  | .scalar (.bytes value) => !value.isEmpty
  | .scalar (.day _) => true
  | .scalar (.moment _) => true
  | .list items => !items.isEmpty
  | .map entries => !entries.isEmpty
  | .pair _ _ => true
  | .set members => !members.isEmpty
  | .labelled _ content => isSet content
  | .again _ => true

def isNull : Document → Bool
  | .scalar .null => true
  | _ => false

def ifSet (value : Document) : Option Document := if value.isSet then some value else none

def text? : Document → Option String
  | .scalar (.text value) => some value
  | _ => none

mutual

/-- The value with the places that stand for labelled values filled in. A label inside the value hides
the same label around it. -/
def filled (values : List (Nat × Document)) : Document → Document
  | .scalar value => .scalar value
  | .list items => .list (filledItems values items)
  | .map entries => .map (filledEntries values entries)
  | .pair first second => .pair (filled values first) (filled values second)
  | .set members => .set members
  | .labelled label content =>
    .labelled label (filled (values.filter fun entry => entry.1 ≠ label) content)
  | .again label => (values.lookup label).getD (.again label)

def filledItems (values : List (Nat × Document)) : List Document → List Document
  | [] => []
  | item :: rest => filled values item :: filledItems values rest

def filledEntries (values : List (Nat × Document)) :
    List (Scalar × Document) → List (Scalar × Document)
  | [] => []
  | (name, value) :: rest => (name, filled values value) :: filledEntries values rest

end

/-- The content of a labelled value, in which the value itself stands again. Any other value is its
own content. -/
def opened : Document → Document
  | .labelled label content => filled [(label, .labelled label content)] content
  | value => value

def items? (value : Document) : Option (List Document) :=
  match value.opened with
  | .list items => some items
  | _ => none

def entries? (value : Document) : Option Entries :=
  match value.opened with
  | .map entries => some entries
  | _ => none

/-- What a loop over the value meets: items, keys, members, single characters, or bytes as numbers. -/
def elements? (value : Document) : Option (List Document) :=
  match value.opened with
  | .list items => some items
  | .map entries => some (entries.map fun entry => .scalar entry.1)
  | .pair first second => some [first, second]
  | .set members => some (members.map .scalar)
  | .scalar (.text value) => some (value.toList.map fun c => text (String.singleton c))
  | .scalar (.bytes value) => some (value.map fun byte => nat byte.toNat)
  | _ => none

end Document

namespace Entries

def find? (entries : Entries) (key : Key) : Option Document :=
  match entries with
  | [] => none
  | (name, value) :: rest => if name.key = key then some value else find? rest key

def get (entries : Entries) (name : String) : Document :=
  (entries.find? (.text name)).getD .null

def has (entries : Entries) (name : String) : Bool := (entries.find? (.text name)).isSome

/-- Sets a key. A key that is already there keeps its place and its spelling. -/
def insert (entries : Entries) (name : Scalar) (value : Document) : Entries :=
  match entries with
  | [] => [(name, value)]
  | (other, old) :: rest =>
    if other.key = name.key then (other, value) :: rest else (other, old) :: insert rest name value

def ofPairs (pairs : List (Scalar × Document)) : Entries :=
  pairs.foldl (fun entries pair => entries.insert pair.1 pair.2) []

end Entries

namespace Document

def field (value : Document) (name : String) : Document :=
  match value.entries? with
  | some entries => Entries.get entries name
  | none => .null

mutual

def size : Document → Nat
  | .scalar _ => 1
  | .list items => 1 + sizeItems items
  | .map entries => 1 + sizeEntries entries
  | .pair first second => 1 + size first + size second
  | .set members => 1 + members.length
  | .labelled _ content => 1 + size content
  | .again _ => 1

def sizeItems : List Document → Nat
  | [] => 0
  | item :: rest => size item + sizeItems rest

def sizeEntries : List (Scalar × Document) → Nat
  | [] => 0
  | (_, value) :: rest => 1 + size value + sizeEntries rest

end

def object (fields : List (String × Document)) : Document :=
  .map (fields.map fun field => (.text field.1, field.2))

def texts (values : List String) : Document := .list (values.map text)

def sameNan : Document → Document → Bool
  | .scalar (.real (.nan a)), .scalar (.real (.nan b)) => a = b
  | _, _ => false

mutual

/-- Equal as values: numbers by what they are worth, mappings whatever the order of their entries. -/
def same : Document → Document → Bool
  | .scalar (.real (.nan _)), .scalar (.real (.nan _)) => false
  | .scalar a, .scalar b => a.key = b.key
  | .list as, .list bs => sameItems as bs
  | .map as, .map bs => as.length = bs.length && sameEntries as bs
  | .pair a b, .pair c d => (sameNan a c || same a c) && (sameNan b d || same b d)
  | .set as, .set bs =>
    as.length = bs.length && as.all fun a => bs.any fun b => a.key = b.key
  | _, _ => false

/-- Equal item by item; a value that is not a number equals itself here. -/
def sameItems : List Document → List Document → Bool
  | [], [] => true
  | a :: as, b :: bs => (sameNan a b || same a b) && sameItems as bs
  | _, _ => false

def sameEntries : List (Scalar × Document) → Entries → Bool
  | [], _ => true
  | (name, value) :: rest, others =>
    (match others.find? name.key with
    | some other => sameNan value other || same value other
    | none => false) && sameEntries rest others

end

end Document

end DeclGraph
