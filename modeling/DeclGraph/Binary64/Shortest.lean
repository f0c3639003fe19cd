import DeclGraph.Binary64.Basic

/-!
Shortest decimal text of a 64-bit number: the fewest digits that read back as the number, of several
the nearest, and of two equally near ones that with the even last digit. Exponents from -4 to 15 are written positionally.
-/

namespace DeclGraph.Binary64

structure Decimal where
  digits : Nat
  power : Int
  deriving DecidableEq, Repr, Inhabited

def decimalDigits (n : Nat) : List Char := Nat.toDigits 10 n

def ratio (m : Nat) (e : Int) : Nat × Nat :=
  if 0 ≤ e then (m * Nat.pow 2 e.toNat, 1) else (m, Nat.pow 2 (-e).toNat)

/-- `num / den` in units of `10 ^ power`, rounded down, and whether something was cut off. -/
def inUnits (num den : Nat) (power : Int) : Nat × Bool :=
  let num' := if 0 ≤ power then num else num * Nat.pow 10 (-power).toNat
  let den' := if 0 ≤ power then den * Nat.pow 10 power.toNat else den
  (num' / den', num' % den' ≠ 0)

def leadingPower (num den : Nat) : Nat → Int → Int
  | 0, power => power
  | fuel + 1, power =>
    if (inUnits num den power).1 = 0 then leadingPower num den fuel (power - 1) else power

def distance (num den : Nat) (d : Decimal) : Nat :=
  let scale := Nat.pow 10 (-d.power).toNat
  let left := num * scale
  let right := den * d.digits * (if 0 ≤ d.power then Nat.pow 10 d.power.toNat else 1)
  if left ≤ right then right - left else left - right

def readsBack (m : Nat) (e : Int) (d : Decimal) : Bool :=
  ofDecimal false d.digits (decimalDigits d.digits).length d.power = .finite false m e

/-- The candidate of `count` digits, if one of the two neighbours on that grid reads back. -/
def candidate? (m : Nat) (e : Int) (lead : Int) (count : Nat) : Option Decimal :=
  let (num, den) := ratio m e
  let power := lead - Int.ofNat count + 1
  let (floor, inexact) := inUnits num den power
  let below : Decimal := ⟨floor, power⟩
  let above : Decimal := ⟨if inexact then floor + 1 else floor, power⟩
  let low := readsBack m e below
  let high := readsBack m e above
  if low && high then
    let gapBelow := distance num den below
    let gapAbove := distance num den above
    if gapBelow < gapAbove then some below
    else if gapAbove < gapBelow then some above
    else if floor % 2 = 0 then some below else some above
  else if low then some below
  else if high then some above
  else none

def shortestFrom (m : Nat) (e : Int) (lead : Int) : Nat → Nat → Decimal
  | 0, _ => ⟨m, e⟩
  | fuel + 1, count =>
    match candidate? m e lead count with
    | some d => d
    | none => shortestFrom m e lead fuel (count + 1)

def trimZeros (d : Decimal) : List Char × Int :=
  let cs := decimalDigits d.digits
  let kept := cs.reverse.dropWhile (· = '0') |>.reverse
  (kept, d.power + Int.ofNat (cs.length - kept.length))

def shortest (m : Nat) (e : Int) : List Char × Int :=
  let (num, den) := ratio m e
  let lead := leadingPower num den 700 309
  let (cs, power) := trimZeros (shortestFrom m e lead 17 1)
  (cs, power + Int.ofNat cs.length - 1)

def zeros (n : Nat) : List Char := List.replicate n '0'

/-- Digits with the decimal point after the one of weight ten to the zero. -/
def positional (cs : List Char) (lead : Int) : List Char :=
  if lead < 0 then '0' :: '.' :: (zeros ((-lead).toNat - 1) ++ cs)
  else
    let whole := lead.toNat + 1
    if cs.length ≤ whole then cs ++ zeros (whole - cs.length) ++ ['.', '0']
    else cs.take whole ++ '.' :: cs.drop whole

def exponentText (power : Int) : List Char :=
  let cs := decimalDigits power.natAbs
  (if power < 0 then '-' else '+') :: (if cs.length < 2 then '0' :: cs else cs)

def scientific (cs : List Char) (lead : Int) : List Char :=
  match cs with
  | [] => []
  | c :: [] => c :: 'e' :: exponentText lead
  | c :: rest => c :: '.' :: rest ++ 'e' :: exponentText lead

structure Words where
  nan : String
  infinity : String

/-- A number as text: fewest digits, positional for exponents from -4 to 15. -/
def render (words : Words) : Binary64 → String
  | .nan _ => words.nan
  | .infinite negative => if negative then "-" ++ words.infinity else words.infinity
  | .finite negative m e =>
    let body :=
      if m = 0 then ['0', '.', '0']
      else
        let (cs, lead) := shortest m e
        if -4 ≤ lead ∧ lead < 16 then positional cs lead else scientific cs lead
    String.ofList (if negative then '-' :: body else body)

end DeclGraph.Binary64
