/-!
Days and moments of the Gregorian calendar. A moment may know how far its clock is from universal
time; two moments that do are the same when they are at the same instant.
-/

namespace DeclGraph.Calendar

structure Day where
  year : Nat
  month : Nat
  day : Nat
  deriving DecidableEq, Repr, Inhabited

/-- A time on a day. `offset` is in minutes east of universal time. -/
structure Moment where
  day : Day
  hour : Nat
  minute : Nat
  second : Nat
  microsecond : Nat
  offset : Option Int
  deriving DecidableEq, Repr, Inhabited

inductive Defect where
  | year (value : Nat)
  | month
  | day
  | hour
  | minute
  | second
  /-- The offset is a day or more. -/
  | offset (minutes : Int)
  deriving DecidableEq, Repr, Inhabited

def isLeap (year : Nat) : Bool := year % 4 = 0 && (year % 100 ≠ 0 || year % 400 = 0)

def daysIn (year month : Nat) : Nat :=
  if month = 2 then (if isLeap year then 29 else 28)
  else if month = 4 ∨ month = 6 ∨ month = 9 ∨ month = 11 then 30
  else 31

-- The day of the parts, if there is one.
def Day.ofParts (year month day : Nat) : Except Defect Day :=
  if year = 0 then .error (.year year)
  else if month = 0 ∨ 12 < month then .error .month
  else if day = 0 ∨ daysIn year month < day then .error .day
  else .ok ⟨year, month, day⟩

def dayMinutes : Nat := 24 * 60

def checkOffset (minutes : Int) : Except Defect Unit :=
  if dayMinutes ≤ minutes.natAbs then .error (.offset minutes) else .ok ()

-- The moment of the parts, if there is one.
def Moment.ofParts (year month day hour minute second microsecond : Nat) (offset : Option Int) :
    Except Defect Moment := do
  match offset with
  | some minutes => checkOffset minutes
  | none => pure ()
  let day ← Day.ofParts year month day
  if 23 < hour then throw .hour
  if 59 < minute then throw .minute
  if 59 < second then throw .second
  pure ⟨day, hour, minute, second, microsecond, offset⟩

def daysBeforeYear (year : Nat) : Nat :=
  let past := year - 1
  past * 365 + past / 4 - past / 100 + past / 400

def daysBeforeMonth (year month : Nat) : Nat :=
  (List.range (month - 1)).foldl (fun total index => total + daysIn year (index + 1)) 0

-- The number of a day, counted from the first day of the year one.
def Day.number (day : Day) : Nat :=
  daysBeforeYear day.year + daysBeforeMonth day.year day.month + day.day

def Moment.clock (moment : Moment) : Int :=
  let minutes := (moment.day.number * 24 + moment.hour) * 60 + moment.minute
  Int.ofNat ((minutes * 60 + moment.second) * 1000000 + moment.microsecond)

/-- Microseconds up to a moment in universal time, if its clock is tied to it. -/
def Moment.instant? (moment : Moment) : Option Int :=
  moment.offset.map fun minutes => moment.clock - minutes * 60000000

def padded (width n : Nat) : String :=
  let digits := Nat.toDigits 10 n
  String.ofList (List.replicate (width - digits.length) '0' ++ digits)

def Day.text (day : Day) : String :=
  padded 4 day.year ++ "-" ++ padded 2 day.month ++ "-" ++ padded 2 day.day

def offsetText (minutes : Int) : String :=
  (if minutes < 0 then "-" else "+") ++ padded 2 (minutes.natAbs / 60) ++ ":"
    ++ padded 2 (minutes.natAbs % 60)

def Moment.text (moment : Moment) : String :=
  moment.day.text ++ " " ++ padded 2 moment.hour ++ ":" ++ padded 2 moment.minute ++ ":"
    ++ padded 2 moment.second
    ++ (if moment.microsecond = 0 then "" else "." ++ padded 6 moment.microsecond)
    ++ ((moment.offset.map offsetText).getD "")

def commaList (values : List Nat) : String := ", ".intercalate (values.map toString)

def spanLiteral (minutes : Int) : String :=
  let days := minutes.fdiv dayMinutes
  let seconds := minutes.fmod dayMinutes * 60
  let parts := (if days = 0 then [] else ["days=" ++ toString days])
    ++ (if seconds = 0 then [] else ["seconds=" ++ toString seconds])
  "datetime.timedelta(" ++ (if parts.isEmpty then "0" else ", ".intercalate parts) ++ ")"

def Day.literal (day : Day) : String :=
  "datetime.date(" ++ commaList [day.year, day.month, day.day] ++ ")"

/-- A moment as a value inside a message. Zero seconds and microseconds are left out. -/
def Moment.literal (moment : Moment) : String :=
  let tail := if moment.microsecond ≠ 0 then [moment.second, moment.microsecond]
    else if moment.second ≠ 0 then [moment.second] else []
  let zone := match moment.offset with
    | none => ""
    | some 0 => ", tzinfo=datetime.timezone.utc"
    | some minutes => ", tzinfo=datetime.timezone(" ++ spanLiteral minutes ++ ")"
  "datetime.datetime("
    ++ commaList ([moment.day.year, moment.day.month, moment.day.day, moment.hour, moment.minute] ++ tail)
    ++ zone ++ ")"

def Defect.message : Defect → String
  | .year value => "year " ++ toString value ++ " is out of range"
  | .month => "month must be in 1..12"
  | .day => "day is out of range for month"
  | .hour => "hour must be in 0..23"
  | .minute => "minute must be in 0..59"
  | .second => "second must be in 0..59"
  | .offset minutes =>
    "offset must be a timedelta strictly between -timedelta(hours=24) and timedelta(hours=24), not "
      ++ spanLiteral minutes ++ "."

end DeclGraph.Calendar
