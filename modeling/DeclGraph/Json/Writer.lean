import DeclGraph.Binary64.Shortest
import DeclGraph.Document.Display
import DeclGraph.Text.Quoted

/-!
JSON text of a document. One line with a blank after each comma and colon, or one entry a line with
an indentation step.
-/

namespace DeclGraph.Json

structure Style where
  /-- Write characters beyond ASCII as escapes. -/
  asciiOnly : Bool
  /-- One entry a line, indented by so many blanks a level; all on one line if absent. -/
  step : Option Nat

def Style.plain : Style := ⟨false, none⟩

def Style.ascii : Style := ⟨true, none⟩

def Style.pretty : Style := ⟨true, some 2⟩

def numberWords : Binary64.Words := ⟨"NaN", "Infinity"⟩

def unitEscape (unit : Nat) : List Char := '\\' :: 'u' :: Text.hexDigits 4 unit

def codeEscape (code : Nat) : List Char :=
  if code < 0x10000 then unitEscape code
  else unitEscape (0xd800 + (code - 0x10000) / 0x400) ++ unitEscape (0xdc00 + (code - 0x10000) % 0x400)

def escape (asciiOnly : Bool) (c : Char) : List Char :=
  if c = '"' then ['\\', '"']
  else if c = '\\' then ['\\', '\\']
  else if c = '\n' then ['\\', 'n']
  else if c = '\r' then ['\\', 'r']
  else if c = '\t' then ['\\', 't']
  else if c = '\x0c' then ['\\', 'f']
  else if c = '\x08' then ['\\', 'b']
  else if c.toNat < 0x20 then unitEscape c.toNat
  else if asciiOnly && 0x7e < c.toNat then codeEscape (Text.code c)
  else [c]

def stringChars (asciiOnly : Bool) (text : String) : List Char :=
  '"' :: text.toList.flatMap (escape asciiOnly) ++ ['"']

/-- A scalar as a value. What JSON has no form for is written as the text that messages show. -/
def scalarChars (asciiOnly : Bool) : Scalar → List Char
  | .null => "null".toList
  | .bool true => "true".toList
  | .bool false => "false".toList
  | .int value => (toString value).toList
  | .real value => (value.render numberWords).toList
  | .text value => stringChars asciiOnly value
  | other => stringChars asciiOnly (Document.scalar other).display

/-- A scalar as a key: what is no text is quoted as it would be written. -/
def keyChars (asciiOnly : Bool) : Scalar → List Char
  | .text value => stringChars asciiOnly value
  | other => '"' :: scalarChars asciiOnly other ++ ['"']

def lineStart (style : Style) (depth : Nat) : List Char :=
  match style.step with
  | none => []
  | some step => '\n' :: List.replicate (step * depth) ' '

def separator (style : Style) (depth : Nat) : List Char :=
  match style.step with
  | none => [',', ' ']
  | some _ => ',' :: lineStart style depth

mutual

def chars (style : Style) (depth : Nat) : Document → List Char
  | .scalar value => scalarChars style.asciiOnly value
  | .list [] => ['[', ']']
  | .list (item :: rest) =>
    '[' :: lineStart style (depth + 1) ++ chars style (depth + 1) item
      ++ itemChars style (depth + 1) rest ++ lineStart style depth ++ [']']
  | .map [] => ['\x7b', '\x7d']
  | .map ((name, value) :: rest) =>
    '\x7b' :: lineStart style (depth + 1) ++ keyChars style.asciiOnly name ++ [':', ' ']
      ++ chars style (depth + 1) value ++ entryChars style (depth + 1) rest
      ++ lineStart style depth ++ ['\x7d']
  | .pair first second =>
    '[' :: lineStart style (depth + 1) ++ chars style (depth + 1) first ++ separator style (depth + 1)
      ++ chars style (depth + 1) second ++ lineStart style depth ++ [']']
  | .set members => stringChars style.asciiOnly (Document.set members).display
  | .labelled _ content => chars style depth content
  | .again _ => "null".toList

def itemChars (style : Style) (depth : Nat) : List Document → List Char
  | [] => []
  | item :: rest => separator style depth ++ chars style depth item ++ itemChars style depth rest

def entryChars (style : Style) (depth : Nat) : List (Scalar × Document) → List Char
  | [] => []
  | (name, value) :: rest =>
    separator style depth ++ keyChars style.asciiOnly name ++ [':', ' '] ++ chars style depth value
      ++ entryChars style depth rest

end

def write (style : Style) (document : Document) : String := String.ofList (chars style 0 document)

end DeclGraph.Json
