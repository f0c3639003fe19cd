import DeclGraph.Document.Basic
import DeclGraph.Numeral.Real
import DeclGraph.Text.Base64
import DeclGraph.Yaml.Cursor
import DeclGraph.Yaml.Tag

/-!
The value of a scalar under a tag. A text that does not spell what the tag says is an error of its own
kind, except where the tag itself makes the text malformed.
-/

namespace DeclGraph.Yaml

def ofNumeral {α : Type} (result : Except Numeral.Defect α) : Except Fault α :=
  match result with
  | .ok value => .ok value
  | .error defect => .error (.numeral defect)

def sexagesimal (digits : List Int) : Int := digits.foldl (fun n digit => 60 * n + digit) 0

/-- The text without underscores, and whether its sign is negative; it has to have a first character. -/
def signedBody (cs : List Char) : Except Fault (Bool × List Char) :=
  match cs.filter (· ≠ '_') with
  | [] => .error .noIndex
  | c :: rest => .ok (decide (c = '-'), unsigned (c :: rest))

def intOf (text : String) : Except Fault Int := do
  let (negative, body) ← signedBody text.toList
  let size ← match body with
    | [] => throw .noIndex
    | ['0'] => pure 0
    | '0' :: 'b' :: digits => ofNumeral (Numeral.integerOf 2 digits)
    | '0' :: 'x' :: digits => ofNumeral (Numeral.integerOf 16 digits)
    | '0' :: _ => ofNumeral (Numeral.integerOf 8 body)
    | _ => sexagesimal <$> (colonParts body).mapM fun part => ofNumeral (Numeral.integerOf 10 part)
  pure (if negative then -size else size)

/-- The sum of digits in base 60, least significant first, rounded at each step. `weight` is the value
of a one in the first digit. -/
def sexagesimalSum : List Binary64 → Int → Binary64 → Except Fault Binary64
  | [], _, total => .ok total
  | digit :: rest, weight, total =>
    match Binary64.ofInt? weight with
    | none => .error (.tooLarge .real)
    | some factor => sexagesimalSum rest (60 * weight) (total.add (digit.mul factor))

/-- The real number that a text spells; one that is not a number gets the mark, unless it is written
by the word of YAML. -/
def realOf (mark : Nat) (text : String) : Except Fault Binary64 := do
  let (negative, body) ← signedBody (Text.lower text).toList
  if String.ofList body = ".nan" then pure (.nan 0)
  else
    let size ←
      if String.ofList body = ".inf" then pure (.infinite false)
      else if ':' ∈ body then do
        let digits ← (colonParts body).mapM fun part => ofNumeral (Numeral.realOf part)
        sexagesimalSum digits.reverse 1 (Binary64.zero false)
      else ofNumeral (Numeral.realOf body)
    pure ((if negative then size.negate else size).marked mark)

def timestampOf (text : String) : Except Fault Scalar :=
  match timestampText? (dropFinalBreak text.toList) with
  | none => .error (.lacks Document.null.kindWord "groupdict")
  | some parts =>
    match parts.value with
    | .ok (.inl day) => .ok (.day day)
    | .ok (.inr moment) => .ok (.moment moment)
    | .error defect => .error (.calendar defect)

def scalarOf (tag : Tag) (mark : Nat) (text : String) : Except Failure Scalar :=
  let passOn {α : Type} (result : Except Fault α) (wrap : α → Scalar) : Except Failure Scalar :=
    match result with
    | .ok value => .ok (wrap value)
    | .error fault => .error (.unusable fault)
  match tag with
  | .null => .ok .null
  | .str => .ok (.text text)
  | .bool =>
    match boolWords.lookup (Text.lower text) with
    | some value => .ok (.bool value)
    | none => .error (.unusable (.noKey (.text (Text.lower text))))
  | .int => passOn (intOf text) Scalar.int
  | .float => passOn (realOf mark text) Scalar.real
  | .timestamp => passOn (timestampOf text) id
  | .binary =>
    match Text.base64? text.toList with
    | some bytes => .ok (.bytes bytes)
    | none => .error .malformed
  | _ => .error .malformed

end DeclGraph.Yaml
