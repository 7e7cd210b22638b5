import Booru.Failure
import Booru.Time.Stamp

/-! Dates as mail and HTTP headers carry them, read with the tolerance that such headers need: the
day of the week may be missing, day and month may change places, and so may year, time and zone. -/

namespace Booru.Time

structure MailDate where
  year : Int
  month : Int
  day : Int
  hour : Int
  minute : Int
  second : Int
  zone : Option Int
  deriving DecidableEq, Repr

namespace MailDate

def monthNames : List String :=
  ["jan", "feb", "mar", "apr", "may", "jun", "jul", "aug", "sep", "oct", "nov", "dec",
    "january", "february", "march", "april", "may", "june", "july",
    "august", "september", "october", "november", "december"]

def dayNames : List String := ["mon", "tue", "wed", "thu", "fri", "sat", "sun"]

def zoneNames : List (String × Int) :=
  [("UT", 0), ("UTC", 0), ("GMT", 0), ("Z", 0), ("AST", -400), ("ADT", -300),
    ("EST", -500), ("EDT", -400), ("CST", -600), ("CDT", -500), ("MST", -700), ("MDT", -600),
    ("PST", -800), ("PDT", -700)]

def monthNumber? (name : String) : Option Int :=
  (monthNames.idxOf? name).map fun i => (i % 12 : Nat) + 1

def zoneCapital (c : Char) : List Char :=
  match c with
  | 'ſ' => ['S']
  | 'ﬅ' | 'ﬆ' => ['S', 'T']
  | c => [c.toUpper]

def partsAt (mark : Char) (s : String) : List String :=
  (Text.splitWhen (· == mark) s.toList).map String.ofList

def dropComma (s : String) : String :=
  String.ofList (if s.toList.getLast? == some ',' then s.toList.dropLast else s.toList)

/-- The first word may be the day of the week, or end with it and a comma. -/
def withoutDayName : List String → List String
  | [] => []
  | first :: rest =>
    if first.toList.getLast? == some ',' || dayNames.contains (Text.lower first) then rest
    else String.ofList (first.toList.reverse.takeWhile (· != ',')).reverse :: rest

def splitDate (words : List String) : List String :=
  match words with
  | [date, time, zone] =>
    match partsAt '-' date with
    | [day, month, year] => [day, month, year, time, zone]
    | _ => words
  | _ => words

/-- A zone may hang on the time. -/
def splitZone (words : List String) : List String :=
  match words with
  | [day, month, year, time] =>
    let mark := if time.toList.contains '+' then '+' else '-'
    let front := time.toList.takeWhile (· != mark)
    if time.toList.contains mark && !front.isEmpty then
      [day, month, year, String.ofList front, String.ofList (time.toList.drop front.length)]
    else [day, month, year, time, ""]
  | _ => words

def dayAndMonth? (first second : String) : Option (String × Int) :=
  match monthNumber? (Text.lower second) with
  | some n => some (first, n)
  | none => (monthNumber? (Text.lower first)).map fun n => (second, n)

def timeParts? (time : String) : Option (String × String × String) :=
  match partsAt ':' time with
  | [h, m] => some (h, m, "0")
  | [h, m, s] => some (h, m, s)
  | [_] =>
    match partsAt '.' time with
    | [h, m] => some (h, m, "0")
    | [h, m, s] => some (h, m, s)
    | _ => none
  | _ => none

/-- Years below a hundred belong to the twentieth century from 69 on, else to the twenty-first. -/
def fullYear (year : Int) : Int := if year < 100
    then (if 68 < year then year + 1900 else year + 2000) else year

/-- The zone's distance from universal time in seconds: by name, or as hours and minutes. Zero with
a minus sign says that the zone is not known. -/
def zoneSeconds? (zone : String) : Option Int :=
  let name := String.ofList (zone.toList.flatMap zoneCapital)
  let hundreds : Option Int := match zoneNames.lookup name with
    | some n => some n
    | none =>
      match Text.readInteger name with
      | .ok n => if n == 0 && name.toList.head? == some '-' then none else some n
      | .error _ => none
  hundreds.map fun n =>
    let size : Int := n.natAbs / 100 * 3600 + n.natAbs % 100 * 60
    if n < 0 then -size else size

def integer? (s : String) : Option Int :=
  match Text.readInteger s with
  | .ok n => some n
  | .error _ => none

def read? (s : String) : Option MailDate :=
  match (splitZone (splitDate (withoutDayName (Text.words s)))).take 5 with
  | [first, second, third, fourth, fifth] => do
    if first.isEmpty || second.isEmpty || third.isEmpty then none
    let (day, month) ← dayAndMonth? first second
    let yearLate := third.toList.head? != some ':' && third.toList.contains ':'
    let (year, time) := if yearLate then (fourth, third) else (third, fourth)
    let year := dropComma year
    if year.isEmpty then none
    let (year, zone) :=
      if year.toList.head?.any Text.isDigitLike then (year, fifth) else (fifth, year)
    let (hour, minute, second) ← timeParts? (dropComma time)
    let year ← integer? year
    let day ← integer? (dropComma day)
    let hour ← integer? hour
    let minute ← integer? minute
    let second ← integer? second
    pure ⟨fullYear year, month, day, hour, minute, second, zoneSeconds? zone⟩
  | _ => none

def checkField (n : Int) : Except RangeError Unit :=
  if n < -0x8000000000000000 || 0x8000000000000000 ≤ n then .error .longField
  else if 0x80000000 ≤ n then .error .fieldAbove
  else if n < -0x80000000 then .error .fieldBelow
  else .ok ()

def checkZone (seconds : Int) : Except RangeError Unit :=
  let days := seconds.fdiv 86400
  if days < -0x80000000 || 0x80000000 ≤ days then .error .wideInt
  else if days < -999999999 || 999999999 < days then .error (.days days)
  else .ok ()

def within (low high n : Int) : Bool := low ≤ n && n ≤ high

/-- The point in time, if the fields name one. A zone lies less than a day away. Fields that are too
wide for a machine integer are faults. -/
def instant? (d : MailDate) : Except RangeError (Option Instant) := do
  let zone := d.zone.getD 0
  checkZone zone
  if !within (-86399) 86399 zone then return none
  [d.year, d.month, d.day, d.hour, d.minute, d.second].forM checkField
  if within 1 9999 d.year && within 1 12 d.month && within 1 (daysInMonth d.year d.month) d.day
      && within 0 23 d.hour && within 0 59 d.minute && within 0 59 d.second then
    let seconds := ((dayNumber d.year d.month d.day * 24 + d.hour) * 60 + d.minute) *
      60 + d.second - zone
    return some ⟨seconds * 1000000⟩
  else return none

end MailDate
end Booru.Time
