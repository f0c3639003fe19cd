import DeclGraph.Binary64.Shortest
import DeclGraph.Document.Basic
import DeclGraph.Numeral.Integer
import DeclGraph.Text.Quoted

/-!
How messages show a value. A text stands as it is when it is the whole value, and quoted inside a
list or a mapping. A value met inside itself is shown by dots. An integer of too many digits cannot be
shown, and neither can a value that holds one.
-/

namespace DeclGraph

def Document.numberWords : Binary64.Words := ⟨"nan", "inf"⟩

def Scalar.literal : Scalar → String
  | .null => "None"
  | .bool true => "True"
  | .bool false => "False"
  | .int value => toString value
  | .real value => value.render Document.numberWords
  | .text value => Text.quoted value
  | .bytes value => Text.quotedBytes value
  | .day value => value.literal
  | .moment value => value.literal

def Scalar.isShowable : Scalar → Bool
  | .int value => !Numeral.isTooLong value
  | _ => true

namespace Document

/-- What stands for a value inside itself. -/
def dots : Document → String
  | .map _ => "\x7b...\x7d"
  | .pair _ _ => "(...)"
  | _ => "[...]"

mutual

/-- A value inside a message, texts quoted. `around` holds what stands for the values around it. -/
def literalIn (around : List (Nat × String)) : Document → String
  | .scalar value => value.literal
  | .list items => "[" ++ ", ".intercalate (literalItems around items) ++ "]"
  | .map entries => "\x7b" ++ ", ".intercalate (literalEntries around entries) ++ "\x7d"
  | .pair first second =>
    "(" ++ literalIn around first ++ ", " ++ literalIn around second ++ ")"
  | .set [] => "set()"
  | .set members => "\x7b" ++ ", ".intercalate (members.map Scalar.literal) ++ "\x7d"
  | .labelled label content =>
    match around.lookup label with
    | some dots => dots
    | none => literalIn ((label, content.dots) :: around) content
  | .again label => (around.lookup label).getD "[...]"

-- The items of a list, each quoted.
def literalItems (around : List (Nat × String)) : List Document → List String
  | [] => []
  | item :: rest => literalIn around item :: literalItems around rest

def literalEntries (around : List (Nat × String)) : List (Scalar × Document) → List String
  | [] => []
  | (name, value) :: rest =>
    (name.literal ++ ": " ++ literalIn around value) :: literalEntries around rest

end

def literal (value : Document) : String := literalIn [] value

/-- A value as the whole of a message's argument: a text stands unquoted, a date as it is written. -/
def display : Document → String
  | .scalar (.text value) => value
  | .scalar (.day value) => value.text
  | .scalar (.moment value) => value.text
  | value => value.literal

mutual

def isShowable : Document → Bool
  | .scalar value => value.isShowable
  | .list items => showableItems items
  | .map entries => showableEntries entries
  | .pair first second => isShowable first && isShowable second
  | .set members => members.all Scalar.isShowable
  | .labelled _ content => isShowable content
  | .again _ => true

def showableItems : List Document → Bool
  | [] => true
  | item :: rest => isShowable item && showableItems rest

def showableEntries : List (Scalar × Document) → Bool
  | [] => true
  | (name, value) :: rest => name.isShowable && isShowable value && showableEntries rest

end

def kindWord : Document → String
  | .scalar .null => "NoneType"
  | .scalar (.bool _) => "bool"
  | .scalar (.int _) => "int"
  | .scalar (.real _) => "float"
  | .scalar (.text _) => "str"
  | .scalar (.bytes _) => "bytes"
  | .scalar (.day _) => "datetime.date"
  | .scalar (.moment _) => "datetime.datetime"
  | .list _ => "list"
  | .map _ => "dict"
  | .pair _ _ => "tuple"
  | .set _ => "set"
  | .labelled _ content => kindWord content
  | .again _ => "list"

def kindText (value : Document) : String := "<class '" ++ value.kindWord ++ "'>"

end Document

end DeclGraph
