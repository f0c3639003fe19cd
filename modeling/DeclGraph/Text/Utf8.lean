/-!
Characters from UTF-8 bytes. Bytes that spell no character are a flaw, which tells where it lies, how
far it reaches and what shows it.
-/

namespace DeclGraph.Text

inductive Flaw.Cause where
  /-- No character starts with the byte. -/
  | start
  /-- The byte after them cannot follow. -/
  | continuation
  /-- No byte follows. -/
  | ending
  deriving DecidableEq, Repr, Inhabited

-- What shows a flaw, in words.
def Flaw.Cause.words : Flaw.Cause → String
  | start => "invalid start byte"
  | continuation => "invalid continuation byte"
  | ending => "unexpected end of data"

structure Flaw where
  first : UInt8
  /-- How many bytes stand before them. -/
  position : Nat
  /-- How many they are. -/
  count : Nat
  cause : Flaw.Cause
  deriving DecidableEq, Repr, Inhabited

namespace Flaw

def byteText (byte : UInt8) : String :=
  let digits := Nat.toDigits 16 byte.toNat
  "0x" ++ String.ofList (if digits.length < 2 then '0' :: digits else digits)

def message (flaw : Flaw) : String :=
  "'utf-8' codec can't decode "
    ++ (if flaw.count = 1 then "byte " ++ byteText flaw.first ++ " in position " ++ toString flaw.position
      else "bytes in position " ++ toString flaw.position ++ "-"
        ++ toString (flaw.position + flaw.count - 1))
    ++ ": " ++ flaw.cause.words

/-- The number of bytes before the one that shows the flaw, unless it is the end that does. -/
def noticed? (flaw : Flaw) : Option Nat :=
  match flaw.cause with
  | .start => some flaw.position
  | .continuation => some (flaw.position + flaw.count)
  | .ending => none

end Flaw

/-- The bytes that may follow the first byte of a character: how many, and between what the first of
them has to be. -/
def continuation? (first : UInt8) : Option (Nat × Nat × Nat) :=
  let b := first.toNat
  if b < 0x80 then some (0, 0, 0)
  else if b < 0xc2 then none
  else if b < 0xe0 then some (1, 0x80, 0xbf)
  else if b = 0xe0 then some (2, 0xa0, 0xbf)
  else if b = 0xed then some (2, 0x80, 0x9f)
  else if b < 0xf0 then some (2, 0x80, 0xbf)
  else if b = 0xf0 then some (3, 0x90, 0xbf)
  else if b < 0xf4 then some (3, 0x80, 0xbf)
  else if b = 0xf4 then some (3, 0x80, 0x8f)
  else none

def leadingBits (first : UInt8) : Nat → Nat
  | 0 => first.toNat
  | 1 => first.toNat % 0x20
  | 2 => first.toNat % 0x10
  | _ => first.toNat % 0x08

/-- The code of a character, or what shows that it is none and after how many bytes. -/
def followingBits : Nat → Nat → Nat → Nat → List UInt8 → Nat → Except (Flaw.Cause × Nat) Nat
  | 0, _, _, code, _, _ => .ok code
  | _ + 1, _, _, _, [], seen => .error (.ending, seen)
  | count + 1, low, high, code, byte :: rest, seen =>
    if low ≤ byte.toNat ∧ byte.toNat ≤ high then
      followingBits count 0x80 0xbf (code * 0x40 + byte.toNat % 0x40) rest (seen + 1)
    else .error (.continuation, seen)

/-- The characters of bytes up to the first flaw, each with the number of bytes up to its end. There
are no more than `fuel` of them. -/
def decodeUntilFlaw : Nat → List UInt8 → Nat → List (Char × Nat) × Option Flaw
  | 0, _, _ => ([], none)
  | _ + 1, [], _ => ([], none)
  | fuel + 1, first :: rest, position =>
    match continuation? first with
    | none => ([], some ⟨first, position, 1, .start⟩)
    | some (count, low, high) =>
      match followingBits count low high (leadingBits first count) rest 1 with
      | .error (cause, seen) => ([], some ⟨first, position, seen, cause⟩)
      | .ok code =>
        let after := position + 1 + count
        let (more, flaw) := decodeUntilFlaw fuel (rest.drop count) after
        ((Char.ofNat code, after) :: more, flaw)

def ofUtf8 (bytes : ByteArray) : Except Flaw String :=
  match String.fromUTF8? bytes with
  | some text => .ok text
  | none => .error ((decodeUntilFlaw bytes.size bytes.toList 0).2.getD default)

end DeclGraph.Text
