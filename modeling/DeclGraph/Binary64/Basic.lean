/-!
Binary floating-point numbers of 64 bits, held exactly. A finite number is a sign, a significand and
a power of two, so every comparison and rounding below is integer arithmetic.
-/

namespace DeclGraph

/-- A number of the 64-bit binary format. `finite negative m e` stands for `± m * 2 ^ e`. What is not
a number carries a mark that tells one such value from another. -/
inductive Binary64 where
  | nan (mark : Nat)
  | infinite (negative : Bool)
  | finite (negative : Bool) (significand : Nat) (exponent : Int)
  deriving DecidableEq, Repr, Inhabited

namespace Binary64

def minExponent : Int := -1074

def maxExponent : Int := 971

def zero (negative : Bool) : Binary64 := .finite negative 0 minExponent

def negate : Binary64 → Binary64
  | .nan mark => .nan mark
  | .infinite negative => .infinite (!negative)
  | .finite negative m e => .finite (!negative) m e

def divideToEven (num den : Nat) : Nat :=
  let q := num / den
  let r := num % den
  if 2 * r < den then q
  else if den < 2 * r then q + 1
  else if q % 2 = 0 then q else q + 1

/-- The rational `num / den` rounded to a multiple of `2 ^ e`, counted in that unit. -/
def roundAt (num den : Nat) (e : Int) : Nat :=
  if 0 ≤ e then divideToEven num (den * Nat.pow 2 e.toNat)
  else divideToEven (num * Nat.pow 2 (-e).toNat) den

/-- The unit in which `num / den` has 53 binary digits, or the smallest unit of the format. -/
def unitExponent (num den : Nat) : Int :=
  let guess : Int := Int.ofNat num.log2 - Int.ofNat den.log2 - 53
  let tooSmall (e : Int) : Bool :=
    if 0 ≤ e then den * Nat.pow 2 (e.toNat + 53) ≤ num
    else den * Nat.pow 2 53 ≤ num * Nat.pow 2 (-e).toNat
  let exact := if tooSmall guess then guess + 1 else guess
  max exact minExponent

def ofRatio (negative : Bool) (num den : Nat) : Binary64 :=
  if num = 0 then zero negative
  else
    let e := unitExponent num den
    let m := roundAt num den e
    let carried := m = Nat.pow 2 53
    let m' := if carried then Nat.pow 2 52 else m
    let e' := if carried then e + 1 else e
    if maxExponent < e' then .infinite negative else .finite negative m' e'

/-- The number nearest to `± digits * 10 ^ power`. Powers far outside the format are settled without
computing them: `width` bounds the decimal digits of `digits`. -/
def ofDecimal (negative : Bool) (digits : Nat) (width : Nat) (power : Int) : Binary64 :=
  if digits = 0 then zero negative
  else if 400 < power then .infinite negative
  else if Int.ofNat width + power < -400 then zero negative
  else if 0 ≤ power then ofRatio negative (digits * Nat.pow 10 power.toNat) 1
  else ofRatio negative digits (Nat.pow 10 (-power).toNat)

def ofInt? (n : Int) : Option Binary64 :=
  match ofRatio (decide (n < 0)) n.natAbs 1 with
  | .infinite _ => none
  | number => some number

def ofScaled (negative : Bool) (m : Nat) (e : Int) : Binary64 :=
  if 0 ≤ e then ofRatio negative (m * Nat.pow 2 e.toNat) 1
  else ofRatio negative m (Nat.pow 2 (-e).toNat)

def signed (negative : Bool) (m : Nat) : Int := if negative then -Int.ofNat m else Int.ofNat m

/-- The number nearest to a sum. A sum of zero is negative only if both parts are. -/
def add : Binary64 → Binary64 → Binary64
  | .nan _, _ => .nan 0
  | _, .nan _ => .nan 0
  | .infinite a, .infinite b => if a = b then .infinite a else .nan 0
  | .infinite a, .finite .. => .infinite a
  | .finite .., .infinite b => .infinite b
  | .finite a m e, .finite b n f =>
    let unit := min e f
    let total := signed a (m * Nat.pow 2 (e - unit).toNat) + signed b (n * Nat.pow 2 (f - unit).toNat)
    if total = 0 then zero (a && b) else ofScaled (decide (total < 0)) total.natAbs unit

def mul : Binary64 → Binary64 → Binary64
  | .nan _, _ => .nan 0
  | _, .nan _ => .nan 0
  | .infinite a, .infinite b => .infinite (a != b)
  | .infinite a, .finite b n _ => if n = 0 then .nan 0 else .infinite (a != b)
  | .finite a m _, .infinite b => if m = 0 then .nan 0 else .infinite (a != b)
  | .finite a m e, .finite b n f => ofScaled (a != b) (m * n) (e + f)

def marked (mark : Nat) : Binary64 → Binary64
  | .nan _ => .nan mark
  | number => number

def toInt? : Binary64 → Option Int
  | .nan _ => none
  | .infinite _ => none
  | .finite negative m e =>
    let sign : Int := if negative then -1 else 1
    if 0 ≤ e then some (sign * Int.ofNat (m * Nat.pow 2 e.toNat))
    else
      let step := Nat.pow 2 (-e).toNat
      if m % step = 0 then some (sign * Int.ofNat (m / step)) else none

def isNonzero : Binary64 → Bool
  | .finite _ m _ => m ≠ 0
  | _ => true

end Binary64

end DeclGraph
