/-!
Unpaired surrogates. A text can hold half of a surrogate pair by itself: an escape spells one, and so does the
name of a file that is not UTF-8. Such a half is no character and has no bytes. It is kept as the private character
`0x100000` above it, which no text is taken to hold for its own sake.
-/

namespace DeclGraph.Text

def isSurrogate (code : Nat) : Bool := 0xd800 ≤ code && code < 0xe000

def ofCode (code : Nat) : Char :=
  if isSurrogate code then Char.ofNat (code + 0x100000) else Char.ofNat code

def isUnpaired (c : Char) : Bool := 0x10d800 ≤ c.toNat && c.toNat < 0x10e000

def code (c : Char) : Nat := if isUnpaired c then c.toNat - 0x100000 else c.toNat

/-- A name that is not UTF-8 spells each byte that fits no character as one of these surrogates. -/
def isByteEscape (c : Char) : Bool := 0xdc80 ≤ code c && code c < 0xdd00

structure Unpaired where
  first : Nat
  /-- How many characters stand before them. -/
  position : Nat
  count : Nat
  deriving DecidableEq, Repr, Inhabited

def findUnpaired? (refused : Char → Bool) (text : String) : Option Unpaired :=
  let cs := text.toList
  match cs.dropWhile (!refused ·) with
  | [] => none
  | c :: rest =>
    some ⟨code c, (cs.takeWhile (!refused ·)).length, 1 + (rest.takeWhile isUnpaired).length⟩

def toBytes (text : String) : Except Unpaired ByteArray :=
  match findUnpaired? isUnpaired text with
  | some flaw => .error flaw
  | none => .ok text.toUTF8

/-- Surrogates that keep a name from having bytes. -/
def unnameable? (name : String) : Option Unpaired :=
  findUnpaired? (fun c => isUnpaired c && !isByteEscape c) name

def hexDigits : Nat → Nat → List Char
  | 0, _ => []
  | width + 1, n => hexDigits width (n / 16) ++ [Nat.digitChar (n % 16)]

def Unpaired.message (flaw : Unpaired) : String :=
  "'utf-8' codec can't encode "
    ++ (if flaw.count = 1 then
        "character '\\u" ++ String.ofList (hexDigits 4 flaw.first) ++ "' in position " ++ toString flaw.position
      else "characters in position " ++ toString flaw.position ++ "-"
        ++ toString (flaw.position + flaw.count - 1))
    ++ ": surrogates not allowed"

end DeclGraph.Text
