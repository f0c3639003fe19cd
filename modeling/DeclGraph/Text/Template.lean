import DeclGraph.Binary64.Places
import DeclGraph.Document.Display
import DeclGraph.Fault

/-!
Message templates. A placeholder starts with `%`, may name an entry in parentheses, may have flags, a
width and a precision, and ends in a letter that says how the value is written. A width or a precision
written `*` is taken from the values. Two `%` in a row stand for one.
-/

namespace DeclGraph.Text

structure Layout where
  left : Bool := false
  zeros : Bool := false
  plus : Bool := false
  blank : Bool := false
  alternate : Bool := false
  width : Nat := 0
  precision : Option Nat := none
  deriving Inhabited

namespace Layout

def fill (layout : Layout) (text : List Char) : List Char :=
  let gap := layout.width - text.length
  if layout.left then text ++ List.replicate gap ' ' else List.replicate gap ' ' ++ text

def ofText (layout : Layout) (text : List Char) : List Char :=
  layout.fill (match layout.precision with
    | some limit => text.take limit
    | none => text)

/-- A number given by sign, lead and digits. Zeros go between the lead and the digits. -/
def ofNumber (layout : Layout) (negative : Bool) (lead digits : List Char) : List Char :=
  let sign := if negative then ['-'] else if layout.plus then ['+'] else if layout.blank then [' ']
    else []
  let head := sign ++ lead
  if layout.zeros && !layout.left then
    head ++ List.replicate (layout.width - head.length - digits.length) '0' ++ digits
  else layout.fill (head ++ digits)

def leading (layout : Layout) (digits : List Char) : List Char :=
  List.replicate (layout.precision.getD 0 - digits.length) '0' ++ digits

end Layout

def exactOf? : Document → Option Int
  | .scalar (.int value) => some value
  | .scalar (.bool value) => some (if value then 1 else 0)
  | _ => none

def wholeOf : Document → Except Fault Int
  | .scalar (.int value) => .ok value
  | .scalar (.bool value) => .ok (if value then 1 else 0)
  | .scalar (.real (.finite negative m e)) =>
    let size : Nat := if 0 ≤ e then m * Nat.pow 2 e.toNat else m / Nat.pow 2 (-e).toNat
    .ok (if negative then -Int.ofNat size else Int.ofNat size)
  | .scalar (.real (.infinite _)) => .error (.tooLarge .finite)
  | .scalar (.real (.nan _)) => .error (.unacceptable "cannot convert float NaN to integer")
  | _ => .error .wrongShape

def realOf : Document → Except Fault Binary64
  | .scalar (.real value) => .ok value
  | value =>
    match exactOf? value with
    | none => .error .wrongShape
    | some n =>
      match Binary64.ofInt? n with
      | some nearest => .ok nearest
      | none => .error (.tooLarge .real)

def characterOf : Document → Except Fault Char
  | .scalar (.text text) =>
    match text.toList with
    | [c] => .ok c
    | _ => .error .wrongShape
  | value =>
    match exactOf? value with
    | none => .error .wrongShape
    | some code => if 0 ≤ code ∧ code < 0x110000 then .ok (ofCode code.toNat) else .error (.tooLarge .word)

def asciiForm (c : Char) : List Char :=
  if c.toNat < 0x80 then [c]
  else if c.toNat < 0x100 then '\\' :: 'x' :: hexDigits 2 c.toNat
  else if c.toNat < 0x10000 then '\\' :: 'u' :: hexDigits 4 c.toNat
  else '\\' :: 'U' :: hexDigits 8 c.toNat

inductive PointForm where
  | fixed
  | scientific
  | general
  deriving DecidableEq, Repr, Inhabited

/-- A 64-bit number in one of the forms, six places if the layout asks for none. -/
def writeReal (layout : Layout) (form : PointForm) (upper : Bool) (value : Binary64) : List Char :=
  let places := layout.precision.getD 6
  let cased (text : List Char) : List Char := if upper then text.map Char.toUpper else text
  match value with
  | .nan _ => layout.ofNumber false [] (cased ['n', 'a', 'n'])
  | .infinite negative => layout.ofNumber negative [] (cased ['i', 'n', 'f'])
  | .finite negative m e =>
    let (num, den) := Binary64.ratio m e
    let text := match form with
      | .fixed => Binary64.fixedText layout.alternate places num den
      | .scientific => Binary64.scientificText layout.alternate places num den
      | .general => Binary64.generalText layout.alternate places num den
    layout.ofNumber negative [] (cased text)

-- An integer in a base, with the mark of the base where the layout asks for it.
def writeBased (layout : Layout) (base : Nat) (mark : List Char) (upper : Bool) (value : Document) :
    Except Fault (List Char) :=
  match exactOf? value with
  | none => .error .wrongShape
  | some n =>
    let digits := Nat.toDigits base n.natAbs
    let shown := if upper then digits.map Char.toUpper else digits
    .ok (layout.ofNumber (decide (n < 0)) (if layout.alternate then mark else [])
      (layout.leading shown))

def writeValue (layout : Layout) (letter : Char) (value : Document) : Except Fault (List Char) :=
  match letter with
  | 's' => .ok (layout.ofText value.display.toList)
  | 'r' => .ok (layout.ofText value.literal.toList)
  | 'a' => .ok (layout.ofText (value.literal.toList.flatMap asciiForm))
  | 'd' | 'i' | 'u' => do
    let n ← wholeOf value
    pure (layout.ofNumber (decide (n < 0)) [] (layout.leading (Nat.toDigits 10 n.natAbs)))
  | 'x' => writeBased layout 16 ['0', 'x'] false value
  | 'X' => writeBased layout 16 ['0', 'X'] true value
  | 'o' => writeBased layout 8 ['0', 'o'] false value
  | 'f' => do pure (writeReal layout .fixed false (← realOf value))
  | 'F' => do pure (writeReal layout .fixed true (← realOf value))
  | 'e' => do pure (writeReal layout .scientific false (← realOf value))
  | 'E' => do pure (writeReal layout .scientific true (← realOf value))
  | 'g' => do pure (writeReal layout .general false (← realOf value))
  | 'G' => do pure (writeReal layout .general true (← realOf value))
  | 'c' => do pure (layout.fill [← characterOf value])
  | _ => .error (.unacceptable "unsupported format character")

structure Supply where
  /-- The entries that a placeholder can name, if there are any. -/
  entries : Option Entries
  /-- The values still to be taken, in order. -/
  remaining : List Document

namespace Supply

/-- A single mapping with entries can be taken as a whole or by the names of its entries. -/
def ofList : List Document → Supply
  | [.map (entry :: rest)] => ⟨some (entry :: rest), [.map (entry :: rest)]⟩
  | values => ⟨none, values⟩

def next (supply : Supply) : Except Fault (Document × Supply) :=
  match supply.remaining with
  | [] => .error .wrongShape
  | value :: rest => .ok (value, { supply with remaining := rest })

def select (supply : Supply) (name : List Char) : Except Fault Supply :=
  match supply.entries with
  | none => .error .wrongShape
  | some entries =>
    match entries.find? (.text (String.ofList name)) with
    | some value => .ok { supply with remaining := [value] }
    | none => .error (.noKey (.text (String.ofList name)))

def nextInt (supply : Supply) (limit : Nat) : Except Fault (Int × Supply) := do
  let (value, rest) ← supply.next
  match exactOf? value with
  | none => throw .wrongShape
  | some n => if limit < n.natAbs then throw (.tooLarge .word) else pure (n, rest)

end Supply

def widthLimit : Nat := Nat.pow 2 63 - 1

def precisionLimit : Nat := Nat.pow 2 31 - 1

def incomplete : Fault := .unacceptable "incomplete format"

/-- The name between parentheses, in which parentheses can be nested `open` deep. -/
def readName : Nat → List Char → Option (List Char × List Char)
  | _, [] => none
  | depth, '(' :: rest => (readName (depth + 1) rest).map fun (name, after) => ('(' :: name, after)
  | 0, ')' :: rest => some ([], rest)
  | depth + 1, ')' :: rest => (readName depth rest).map fun (name, after) => (')' :: name, after)
  | depth, c :: rest => (readName depth rest).map fun (name, after) => (c :: name, after)

def readFlags (layout : Layout) : List Char → Layout × List Char
  | '-' :: rest => readFlags { layout with left := true } rest
  | '0' :: rest => readFlags { layout with zeros := true } rest
  | '+' :: rest => readFlags { layout with plus := true } rest
  | ' ' :: rest => readFlags { layout with blank := true } rest
  | '#' :: rest => readFlags { layout with alternate := true } rest
  | rest => (layout, rest)

def readNumber (cs : List Char) : Nat × List Char :=
  ((cs.takeWhile Char.isDigit).foldl (fun n c => 10 * n + (c.toNat - '0'.toNat)) 0,
    cs.dropWhile Char.isDigit)

/-- The width: digits, or a value for `*`, which puts the text on the left if it is negative. -/
def readWidth (layout : Layout) (supply : Supply) :
    List Char → Except Fault (Layout × Supply × List Char)
  | '*' :: rest => do
    let (n, supply) ← supply.nextInt widthLimit
    pure ({ layout with width := n.natAbs, left := layout.left || decide (n < 0) }, supply, rest)
  | cs => do
    let (width, rest) := readNumber cs
    if widthLimit < width then throw (.unacceptable "width too big")
    pure ({ layout with width }, supply, rest)

/-- The precision after a point: digits, or a value for `*`, of which a negative one counts as zero. -/
def readPrecision (layout : Layout) (supply : Supply) :
    List Char → Except Fault (Layout × Supply × List Char)
  | '.' :: '*' :: rest => do
    let (n, supply) ← supply.nextInt precisionLimit
    pure ({ layout with precision := some n.toNat }, supply, rest)
  | '.' :: cs => do
    let (places, rest) := readNumber cs
    if precisionLimit < places then throw (.unacceptable "precision too big")
    pure ({ layout with precision := some places }, supply, rest)
  | cs => pure (layout, supply, cs)

def skipLength : List Char → List Char
  | 'h' :: rest | 'l' :: rest | 'L' :: rest => rest
  | cs => cs

def fillPlaceholder (supply : Supply) (cs : List Char) :
    Except Fault (List Char × Supply × List Char) := do
  let (supply, afterName) ← match cs with
    | '(' :: more =>
      if supply.entries.isNone then throw .wrongShape
      match readName 0 more with
      | none => throw incomplete
      | some (name, after) => pure (← supply.select name, after)
    | _ => pure (supply, cs)
  let (flagged, afterFlags) := readFlags {} afterName
  let (wide, supply, afterWidth) ← readWidth flagged supply afterFlags
  let (layout, supply, afterPrecision) ← readPrecision wide supply afterWidth
  match skipLength afterPrecision with
  | [] => throw incomplete
  | letter :: rest =>
    let (value, supply) ← supply.next
    pure (← writeValue layout letter value, supply, rest)

/-- Fills the placeholders from the front, at most `fuel` characters and placeholders. -/
def fillFrom : Nat → Supply → List Char → Except Fault (List Char × Supply)
  | 0, supply, _ => .ok ([], supply)
  | _ + 1, supply, [] => .ok ([], supply)
  | fuel + 1, supply, '%' :: '%' :: rest => do
    let (text, last) ← fillFrom fuel supply rest
    pure ('%' :: text, last)
  | fuel + 1, supply, '%' :: rest => do
    let (here, supply, after) ← fillPlaceholder supply rest
    let (text, last) ← fillFrom fuel supply after
    pure (here ++ text, last)
  | fuel + 1, supply, c :: rest => do
    let (text, last) ← fillFrom fuel supply rest
    pure (c :: text, last)

/-- A template with its placeholders filled. All values given in order have to be used. A template
without values stands as it is. -/
def fillTemplate (template : String) (values : List Document) : Except Fault String := do
  if values.isEmpty then pure template
  else
    let cs := template.toList
    let (text, last) ← fillFrom cs.length (Supply.ofList values) cs
    if last.entries.isNone && !last.remaining.isEmpty then throw .wrongShape
    pure (String.ofList text)

end DeclGraph.Text
