import DeclGraph.Binary64.Shortest

/-!
Decimal text with a chosen number of places: with a fixed number of digits after the point, with an
exponent, or with whichever of the two fits a number of significant digits. A half goes to the even
neighbour. The texts here are of a value without its sign, given as a quotient of naturals.
-/

namespace DeclGraph.Binary64

/-- Digits after the point, with the point. An empty fraction has a point only if one is wanted. -/
def pointed (point : Bool) (fraction : List Char) : List Char :=
  if fraction.isEmpty && !point then [] else '.' :: fraction

def fixedText (point : Bool) (places num den : Nat) : List Char :=
  let scaled := divideToEven (num * Nat.pow 10 places) den
  let whole := decimalDigits (scaled / Nat.pow 10 places)
  let below := decimalDigits (scaled % Nat.pow 10 places)
  let fraction := if places = 0 then [] else zeros (places - below.length) ++ below
  whole ++ pointed point fraction

def significantDigits (count num den : Nat) : List Char × Int :=
  if num = 0 then (zeros count, 0)
  else
    let lead := leadingPower num den 700 309
    let power := lead - Int.ofNat count + 1
    let rounded :=
      if 0 ≤ power then divideToEven num (den * Nat.pow 10 power.toNat)
      else divideToEven (num * Nat.pow 10 (-power).toNat) den
    if rounded = Nat.pow 10 count then ('1' :: zeros (count - 1), lead + 1)
    else (decimalDigits rounded, lead)

-- One digit, a number of digits after the point, and an exponent.
def exponentForm (point : Bool) (digits : List Char) (lead : Int) : List Char :=
  digits.take 1 ++ pointed point (digits.drop 1) ++ 'e' :: exponentText lead

def scientificText (point : Bool) (places num den : Nat) : List Char :=
  let (digits, lead) := significantDigits (places + 1) num den
  exponentForm point digits lead

def dropZeros (keep : Bool) (digits : List Char) : List Char :=
  if keep then digits else (digits.reverse.dropWhile (· = '0')).reverse

/-- So many significant digits, with an exponent only where that is below -4 or where the point would
stand behind all of the digits. Zeros at the end are kept only with `point`. -/
def generalText (point : Bool) (count num den : Nat) : List Char :=
  let wanted := max 1 count
  let (digits, lead) := significantDigits wanted num den
  if lead < -4 ∨ Int.ofNat wanted ≤ lead then
    exponentForm point (digits.take 1 ++ dropZeros point (digits.drop 1)) lead
  else if lead < 0 then
    '0' :: pointed point (dropZeros point (zeros ((-lead).toNat - 1) ++ digits))
  else
    let whole := lead.toNat + 1
    digits.take whole ++ pointed point (dropZeros point (digits.drop whole))

end DeclGraph.Binary64
