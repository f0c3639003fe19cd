import DeclGraph.Numeral.Digits
import DeclGraph.Text.DecimalDigit
import DeclGraph.Text.Quoted

/-!
Integers in words of text: blanks around it, a sign, a mark of the base, and digits of any script. A
decimal numeral has a limit on its digits, in reading as in writing.
-/

namespace DeclGraph.Numeral

inductive Defect where
  | notInteger (base : Nat) (text : String)
  | notReal (text : String)
  /-- A numeral of so many digits is not read. -/
  | tooManyDigits (count : Nat)
  /-- A number of more digits is not written. -/
  | tooLongToWrite
  deriving DecidableEq, Repr, Inhabited

def digitLimit : Nat := 4300

def shownLength : Nat := 200

def Defect.message : Defect → String
  | .notInteger base text =>
    let shown := String.ofList ((Text.quoted text).toList.take shownLength)
    "invalid literal for int() with base " ++ toString base ++ ": " ++ shown
  | .notReal text => "could not convert string to float: " ++ Text.quoted text
  | .tooManyDigits count =>
    "Exceeds the limit (" ++ toString digitLimit ++ " digits) for integer string conversion: value has "
      ++ toString count ++ " digits; use sys.set_int_max_str_digits() to increase the limit"
  | .tooLongToWrite =>
    "Exceeds the limit (" ++ toString digitLimit ++ " digits) for integer string conversion; "
      ++ "use sys.set_int_max_str_digits() to increase the limit"

def isTooLong (n : Int) : Bool := Nat.pow 10 digitLimit ≤ n.natAbs

/-- A character by its plain form: a digit of another script by its ASCII digit, other white space
by a blank. What has no plain form is no part of a number. -/
def plainChar (c : Char) : Char :=
  if c.toNat < 0x7f then c
  else if Text.isWideBlank c then ' '
  else
    match Text.decimalValue? c with
    | some digit => Nat.digitChar digit
    | none => '?'

def isBlank (c : Char) : Bool :=
  c = ' ' || c = '\t' || c = '\n' || c = '\r' || c = '\x0b' || c = '\x0c'

def plainChars (cs : List Char) : List Char :=
  (((cs.map plainChar).dropWhile isBlank).reverse.dropWhile isBlank).reverse

def splitSign : List Char → Bool × List Char
  | '-' :: rest => (true, rest)
  | '+' :: rest => (false, rest)
  | cs => (false, cs)

def dropMark (base : Nat) (cs : List Char) : List Char :=
  match cs with
  | '0' :: mark :: rest =>
    if (base = 16 ∧ (mark = 'x' ∨ mark = 'X')) ∨ (base = 8 ∧ (mark = 'o' ∨ mark = 'O'))
        ∨ (base = 2 ∧ (mark = 'b' ∨ mark = 'B')) then rest
    else cs
  | _ => cs

def isDigitOf (base : Nat) (c : Char) : Bool :=
  match hexValue? c with
  | some digit => decide (digit < base)
  | none => false

def ofDigits (base : Nat) (cs : List Char) : Nat :=
  cs.foldl (fun n c => base * n + (hexValue? c).getD 0) 0

def integerOf (base : Nat) (cs : List Char) : Except Defect Int :=
  let (negative, body) := splitSign (plainChars cs)
  let numeral := dropMark base body
  let digits := numeral.takeWhile (isDigitOf base)
  if base = 10 ∧ digitLimit < digits.length then .error (.tooManyDigits digits.length)
  else if digits.isEmpty ∨ digits.length ≠ numeral.length then
    .error (.notInteger base (String.ofList cs))
  else
    let size := Int.ofNat (ofDigits base digits)
    .ok (if negative then -size else size)

end DeclGraph.Numeral
