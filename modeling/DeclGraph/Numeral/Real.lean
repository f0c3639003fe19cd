import DeclGraph.Binary64.Basic
import DeclGraph.Numeral.Integer

/-!
Real numbers in words of text: blanks around it, a sign, and a decimal fraction with an optional
exponent, or a word for infinity or for what is not a number.
-/

namespace DeclGraph.Numeral

/-- A decimal fraction with an optional exponent: the nearest number, if the text is one. -/
def decimal? (negative : Bool) (cs : List Char) : Option Binary64 :=
  let (whole, afterWhole) := digits cs
  let (fraction, afterFraction) := match afterWhole with
    | '.' :: rest => digits rest
    | _ => ([], afterWhole)
  let (power, rest) := exponent afterFraction
  let all := whole ++ fraction
  if all.isEmpty ∨ ¬rest.isEmpty then none
  else some (Binary64.ofDecimal negative (natOfDigits all) all.length
    (power.getD 0 - Int.ofNat fraction.length))

def realOf (cs : List Char) : Except Defect Binary64 :=
  let (negative, body) := splitSign (plainChars cs)
  match String.ofList (body.map Char.toLower) with
  | "inf" => .ok (.infinite negative)
  | "infinity" => .ok (.infinite negative)
  | "nan" => .ok (.nan 0)
  | _ =>
    match decimal? negative body with
    | some number => .ok number
    | none => .error (.notReal (String.ofList cs))

end DeclGraph.Numeral
