import DeclGraph.Numeral.Digits
import DeclGraph.Text.Case
import DeclGraph.Yaml.Timestamp

/-!
What a scalar without quotes stands for: one of a few words, a number, a date, or a text. Numbers may
hold underscores; integers are decimal, binary after `0b`, octal after `0`, hexadecimal after `0x`, or
given in base 60 with colons. A line break at the very end of the text does not count.
-/

namespace DeclGraph.Yaml

inductive Tag where
  | null
  | bool
  | int
  | float
  | binary
  | timestamp
  | str
  | seq
  | map
  | set
  /-- A list of pairs, each written as a mapping of one entry. -/
  | pairs
  /-- The key `<<`, which takes in the entries of other mappings. -/
  | merge
  /-- The key `=`. -/
  | value
  | other
  deriving DecidableEq, Repr, Inhabited

def tagStart : String := "tag:yaml.org,2002:"

def standardTags : List (String × Tag) :=
  [("null", .null), ("bool", .bool), ("int", .int), ("float", .float), ("binary", .binary),
    ("timestamp", .timestamp), ("str", .str), ("seq", .seq), ("map", .map), ("set", .set),
    ("omap", .pairs), ("pairs", .pairs), ("merge", .merge), ("value", .value)]

def Tag.ofText (text : String) : Tag :=
  ((standardTags.find? fun entry => tagStart ++ entry.1 = text).map (·.2)).getD .other

def inThreeCases (word : String) : List String :=
  [word, Text.upper (word.take 1).toString ++ (word.drop 1).toString, Text.upper word]

def boolWords : List (String × Bool) :=
  [("yes", true), ("no", false), ("true", true), ("false", false), ("on", true), ("off", false)]

def isBoolText (cs : List Char) : Bool :=
  boolWords.any fun entry => String.ofList cs ∈ inThreeCases entry.1

def isNullText (cs : List Char) : Bool :=
  cs = ['~'] || String.ofList cs ∈ inThreeCases "null"

def unsigned (cs : List Char) : List Char :=
  match cs with
  | '+' :: rest => rest
  | '-' :: rest => rest
  | _ => cs

def colonParts : List Char → List (List Char)
  | [] => [[]]
  | c :: rest =>
    if c = ':' then [] :: colonParts rest
    else
      match colonParts rest with
      | [] => [[c]]
      | first :: more => (c :: first) :: more

def isSexagesimalDigit : List Char → Bool
  | [c] => c.isDigit
  | [a, b] => '0' ≤ a && a ≤ '5' && b.isDigit
  | _ => false

def isDigitMark (c : Char) : Bool := c.isDigit || c = '_'

def isDigitRun : List Char → Bool
  | c :: rest => c.isDigit && rest.all isDigitMark
  | [] => false

def isIntText (cs : List Char) : Bool :=
  match unsigned cs with
  | '0' :: 'b' :: digits => !digits.isEmpty && digits.all fun c => c = '0' || c = '1' || c = '_'
  | '0' :: 'x' :: digits =>
    !digits.isEmpty && digits.all fun c => (Numeral.hexValue? c).isSome || c = '_'
  | ['0'] => true
  | '0' :: digits => digits.all fun c => ('0' ≤ c && c ≤ '7') || c = '_'
  | body =>
    match colonParts body with
    | first :: parts => isDigitRun first && parts.all isSexagesimalDigit
    | [] => false

def isExponentOrEmpty : List Char → Bool
  | [] => true
  | mark :: sign :: digits =>
    (mark = 'e' || mark = 'E') && (sign = '+' || sign = '-') && !digits.isEmpty
      && digits.all Char.isDigit
  | _ => false

def isFractionTail (cs : List Char) : Bool := isExponentOrEmpty (cs.dropWhile isDigitMark)

def isFloatText (cs : List Char) : Bool :=
  match cs with
  | ['.', 'n', 'a', 'n'] => true
  | ['.', 'N', 'a', 'N'] => true
  | ['.', 'N', 'A', 'N'] => true
  | '.' :: c :: rest =>
    (c.isDigit && isFractionTail rest) || String.ofList (c :: rest) ∈ inThreeCases "inf"
  | _ =>
    match unsigned cs with
    | '.' :: rest => String.ofList rest ∈ inThreeCases "inf"
    | body =>
      let whole := body.takeWhile fun c => c ≠ '.'
      let tail := body.dropWhile fun c => c ≠ '.'
      match tail with
      | '.' :: fraction =>
        match colonParts whole with
        | [digits] => isDigitRun digits && isFractionTail fraction
        | first :: parts =>
          isDigitRun first && parts.all isSexagesimalDigit && fraction.all isDigitMark
        | [] => false
      | _ => false

def dropFinalBreak (cs : List Char) : List Char :=
  if cs.getLast? = some '\n' then cs.dropLast else cs

def Tag.ofPlain (text : String) : Tag :=
  let cs := dropFinalBreak text.toList
  if text = "" then .null
  else if cs.isEmpty then .str
  else if isBoolText cs then .bool
  else if isFloatText cs then .float
  else if isIntText cs then .int
  else if cs = ['<', '<'] then .merge
  else if isNullText cs then .null
  else if isTimestampText cs then .timestamp
  else if cs = ['='] then .value
  else if cs = ['!'] ∨ cs = ['&'] ∨ cs = ['*'] then .other
  else .str

end DeclGraph.Yaml
