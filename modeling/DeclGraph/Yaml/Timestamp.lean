import DeclGraph.Calendar.Basic
import DeclGraph.Numeral.Digits

/-!
Dates and times in YAML: `2001-12-14`, or with a time `2001-12-14 21:59:43.10 -5`. The year has four
digits, minutes and seconds two, the other parts one or two. A fraction of a second counts to the
microsecond.
-/

namespace DeclGraph.Yaml

structure TimeText where
  hour : List Char
  minute : List Char
  second : List Char
  fraction : List Char
  /-- Minutes east of universal time. -/
  offset : Option Int
  deriving Inhabited

structure TimestampText where
  year : List Char
  month : List Char
  day : List Char
  time : Option TimeText
  deriving Inhabited

/-- So many digits in front of a text, or one fewer if `orFewer`, and the rest. -/
def digitsOf (count : Nat) (orFewer : Bool) (cs : List Char) : Option (List Char × List Char) :=
  let found := (cs.take count).takeWhile Char.isDigit
  if found.length = count ∨ (orFewer ∧ found.length + 1 = count ∧ 0 < found.length) then
    some (found, cs.drop found.length)
  else none

def after? (mark : Char) (cs : List Char) : Option (List Char) :=
  match cs with
  | c :: rest => if c = mark then some rest else none
  | [] => none

def isGap (c : Char) : Bool := c = ' ' || c = '\t'

def afterDay? (cs : List Char) : Option (List Char) :=
  match cs with
  | 'T' :: rest => some rest
  | 't' :: rest => some rest
  | c :: rest => if isGap c then some (rest.dropWhile isGap) else none
  | [] => none

def offset? (cs : List Char) : Option (Option Int) :=
  match cs with
  | [] => some none
  | _ =>
    match cs.dropWhile isGap with
    | ['Z'] => some (some 0)
    | sign :: rest => do
      if sign ≠ '+' ∧ sign ≠ '-' then none
      let (hours, afterHours) ← digitsOf 2 true rest
      let minutes ← match afterHours with
        | [] => some []
        | ':' :: more =>
          match digitsOf 2 false more with
          | some (minutes, []) => some minutes
          | _ => none
        | _ => none
      let total := Int.ofNat (Numeral.natOfDigits hours * 60 + Numeral.natOfDigits minutes)
      some (some (if sign = '-' then -total else total))
    | [] => none

def timeText? (cs : List Char) : Option TimeText := do
  let (hour, afterHour) ← digitsOf 2 true cs
  let (minute, afterMinute) ← digitsOf 2 false (← after? ':' afterHour)
  let (second, afterSecond) ← digitsOf 2 false (← after? ':' afterMinute)
  let (fraction, rest) := match afterSecond with
    | '.' :: more => Numeral.digits more
    | _ => ([], afterSecond)
  some ⟨hour, minute, second, fraction, ← offset? rest⟩

-- The parts of a timestamp, if the text is one.
def timestampText? (cs : List Char) : Option TimestampText := do
  let (year, afterYear) ← digitsOf 4 false cs
  let (month, afterMonth) ← digitsOf 2 true (← after? '-' afterYear)
  let (day, rest) ← digitsOf 2 true (← after? '-' afterMonth)
  match rest with
  | [] => some ⟨year, month, day, none⟩
  | _ => some ⟨year, month, day, some (← timeText? (← afterDay? rest))⟩

/-- A plain text that counts as a timestamp: a day alone has two digits for month and day. -/
def isTimestampText (cs : List Char) : Bool :=
  match timestampText? cs with
  | none => false
  | some parts => parts.time.isSome || (parts.month.length = 2 && parts.day.length = 2)

def microseconds (fraction : List Char) : Nat :=
  let kept := fraction.take 6
  Numeral.natOfDigits (kept ++ List.replicate (6 - kept.length) '0')

def TimestampText.value (parts : TimestampText) :
    Except Calendar.Defect (Calendar.Day ⊕ Calendar.Moment) :=
  let number := Numeral.natOfDigits
  match parts.time with
  | none => Sum.inl <$> Calendar.Day.ofParts (number parts.year) (number parts.month) (number parts.day)
  | some time =>
    Sum.inr <$> Calendar.Moment.ofParts (number parts.year) (number parts.month) (number parts.day)
      (number time.hour) (number time.minute) (number time.second) (microseconds time.fraction)
      time.offset

end DeclGraph.Yaml
