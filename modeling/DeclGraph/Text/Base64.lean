/-!
Bytes written in base 64. Characters outside the alphabet are passed over. Two padding marks, or one
after three digits, end the text; without padding the digits have to come in fours.
-/

namespace DeclGraph.Text

def base64Value? (c : Char) : Option Nat :=
  if 'A' ≤ c ∧ c ≤ 'Z' then some (c.toNat - 'A'.toNat)
  else if 'a' ≤ c ∧ c ≤ 'z' then some (c.toNat - 'a'.toNat + 26)
  else if '0' ≤ c ∧ c ≤ '9' then some (c.toNat - '0'.toNat + 52)
  else if c = '+' then some 62
  else if c = '/' then some 63
  else none

/-- Decodes from a place inside a group of four digits: `position` of them are read and `left` holds the
bits that make no byte yet; `pads` counts padding marks in a row. -/
def base64From : Nat → Nat → Nat → List Char → Option (List UInt8)
  | position, _, _, [] => if position = 0 then some [] else none
  | position, left, pads, c :: rest =>
    if c = '=' then
      if 2 ≤ position ∧ 4 ≤ position + pads + 1 then some []
      else base64From position left (if 2 ≤ position then pads + 1 else pads) rest
    else
      match base64Value? c with
      | none => base64From position left pads rest
      | some digit =>
        match position with
        | 0 => base64From 1 digit 0 rest
        | 1 => (base64From 2 (digit % 16) 0 rest).map ((left * 4 + digit / 16).toUInt8 :: ·)
        | 2 => (base64From 3 (digit % 4) 0 rest).map ((left * 16 + digit / 4).toUInt8 :: ·)
        | _ => (base64From 0 0 0 rest).map ((left * 64 + digit).toUInt8 :: ·)

def base64? (cs : List Char) : Option (List UInt8) :=
  if cs.all fun c => c.toNat < 0x80 then base64From 0 0 0 cs else none

end DeclGraph.Text
