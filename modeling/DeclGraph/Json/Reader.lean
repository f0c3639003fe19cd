import DeclGraph.Document.Basic
import DeclGraph.Numeral.Integer
import DeclGraph.Text.Surrogate

/-!
Reads JSON text. `NaN`, `Infinity` and `-Infinity` are accepted as numbers; a key that occurs twice
keeps its first place and its last value; a byte-order mark in front is refused.
-/

namespace DeclGraph.Json

open Numeral (hexNumber? digits natOfDigits fraction exponent)

inductive Failure where
  /-- The text is not JSON. -/
  | malformed
  /-- A numeral in the text cannot be read. -/
  | numeral (defect : Numeral.Defect)
  deriving DecidableEq, Repr, Inhabited

def isBlank (c : Char) : Bool := c = ' ' || c = '\t' || c = '\n' || c = '\r'

def skipBlanks (cs : List Char) : List Char := cs.dropWhile isBlank

def simpleEscape? (c : Char) : Option Char :=
  match c with
  | '"' => some '"'
  | '\\' => some '\\'
  | '/' => some '/'
  | 'b' => some '\x08'
  | 'f' => some '\x0c'
  | 'n' => some '\n'
  | 'r' => some '\r'
  | 't' => some '\t'
  | _ => none

/-- A piece of a string: a character, or one UTF-16 unit given by an escape. -/
inductive Piece where
  | char (c : Char)
  | unit (value : Nat)

def isHighUnit (n : Nat) : Bool := 0xd800 ≤ n && n < 0xdc00

def isLowUnit (n : Nat) : Bool := 0xdc00 ≤ n && n < 0xe000

def pairChar (high low : Nat) : Char :=
  Char.ofNat (0x10000 + (high - 0xd800) * 0x400 + (low - 0xdc00))

def joinPieces : List Piece → List Char
  | [] => []
  | .char c :: rest => c :: joinPieces rest
  | .unit high :: .unit low :: rest =>
    if isHighUnit high && isLowUnit low then pairChar high low :: joinPieces rest
    else Text.ofCode high :: joinPieces (.unit low :: rest)
  | .unit n :: rest => Text.ofCode n :: joinPieces rest

def stringPieces : List Char → Option (List Piece × List Char)
  | [] => none
  | '"' :: rest => some ([], rest)
  | '\\' :: 'u' :: a :: b :: c :: d :: rest =>
    match hexNumber? [a, b, c, d] with
    | none => none
    | some n => (stringPieces rest).map fun (pieces, after) => (.unit n :: pieces, after)
  | '\\' :: c :: rest =>
    match simpleEscape? c with
    | none => none
    | some image => (stringPieces rest).map fun (pieces, after) => (.char image :: pieces, after)
  | c :: rest =>
    if c.toNat < 0x20 ∨ c = '\\' then none
    else (stringPieces rest).map fun (pieces, after) => (.char c :: pieces, after)

def string (cs : List Char) : Except Failure (String × List Char) :=
  match stringPieces cs with
  | some (pieces, rest) => .ok (String.ofList (joinPieces pieces), rest)
  | none => .error .malformed

/-- The integer part: a zero, or digits that do not start with one. -/
def whole? (cs : List Char) : Option (List Char × List Char) :=
  match cs with
  | '0' :: rest => some (['0'], rest)
  | _ => if (digits cs).1.isEmpty then none else some (digits cs)

/-- A number after its sign. Without fraction and exponent it is an integer. -/
def unsigned (negative : Bool) (cs : List Char) : Except Failure (Document × List Char) :=
  match whole? cs with
  | none => .error .malformed
  | some (ds, afterWhole) =>
    let (fs, afterFraction) := fraction afterWhole
    let (power?, rest) := exponent afterFraction
    let all := ds ++ fs
    match fs.isEmpty, power? with
    | true, none =>
      if Numeral.digitLimit < ds.length then .error (.numeral (.tooManyDigits ds.length))
      else
        let n := Int.ofNat (natOfDigits ds)
        .ok (.int (if negative then -n else n), rest)
    | _, _ =>
      .ok (.real (Binary64.ofDecimal negative (natOfDigits all) all.length
        (power?.getD 0 - Int.ofNat fs.length)), rest)

def number (cs : List Char) : Except Failure (Document × List Char) :=
  match cs with
  | 'N' :: 'a' :: 'N' :: rest => .ok (.real (.nan 0), rest)
  | 'I' :: 'n' :: 'f' :: 'i' :: 'n' :: 'i' :: 't' :: 'y' :: rest =>
    .ok (.real (.infinite false), rest)
  | '-' :: 'I' :: 'n' :: 'f' :: 'i' :: 'n' :: 'i' :: 't' :: 'y' :: rest =>
    .ok (.real (.infinite true), rest)
  | '-' :: rest => unsigned true rest
  | _ => unsigned false cs

mutual

/-- One value. Each nested value spends one unit of fuel, so the length of the text is enough. -/
def value : Nat → List Char → Except Failure (Document × List Char)
  | 0, _ => .error .malformed
  | fuel + 1, cs =>
    match cs with
    | '"' :: rest => do
      let (text, after) ← string rest
      pure (.text text, after)
    | '[' :: rest =>
      match skipBlanks rest with
      | ']' :: after => .ok (.list [], after)
      | first => do
        let (found, after) ← items fuel first
        pure (.list found, after)
    | '\x7b' :: rest =>
      match skipBlanks rest with
      | '\x7d' :: after => .ok (.map [], after)
      | first => do
        let (pairs, after) ← entries fuel first
        pure (.map (Entries.ofPairs pairs), after)
    | 'n' :: 'u' :: 'l' :: 'l' :: rest => .ok (.null, rest)
    | 't' :: 'r' :: 'u' :: 'e' :: rest => .ok (.bool true, rest)
    | 'f' :: 'a' :: 'l' :: 's' :: 'e' :: rest => .ok (.bool false, rest)
    | _ => number cs

def items : Nat → List Char → Except Failure (List Document × List Char)
  | 0, _ => .error .malformed
  | fuel + 1, cs => do
    let (item, rest) ← value fuel cs
    match skipBlanks rest with
    | ']' :: after => pure ([item], after)
    | ',' :: more =>
      let (found, after) ← items fuel (skipBlanks more)
      pure (item :: found, after)
    | _ => throw .malformed

def entries : Nat → List Char → Except Failure (List (Scalar × Document) × List Char)
  | 0, _ => .error .malformed
  | fuel + 1, cs => do
    match cs with
    | '"' :: start =>
      let (name, afterName) ← string start
      match skipBlanks afterName with
      | ':' :: more =>
        let (found, rest) ← value fuel (skipBlanks more)
        match skipBlanks rest with
        | '\x7d' :: after => pure ([(.text name, found)], after)
        | ',' :: next =>
          let (pairs, after) ← entries fuel (skipBlanks next)
          pure ((.text name, found) :: pairs, after)
        | _ => throw .malformed
      | _ => throw .malformed
    | _ => throw .malformed

end

def parse (text : String) : Except Failure Document := do
  let cs := text.toList
  match cs with
  | '\ufeff' :: _ => throw .malformed
  | _ =>
    let (document, rest) ← value (2 * cs.length + 1) (skipBlanks cs)
    if (skipBlanks rest).isEmpty then pure document else throw .malformed

end DeclGraph.Json
