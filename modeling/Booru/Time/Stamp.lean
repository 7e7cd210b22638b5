
/-! Days of the Gregorian calendar, points in time, and dates with or without a time of day and an
offset from universal time. -/

/-! ### The calendar -/

namespace Booru.Time

def isLeapYear (year : Int) : Bool := year % 4 == 0 && (year % 100 != 0 || year % 400 == 0)

def daysInMonth (year month : Int) : Int :=
  if month == 2 then (if isLeapYear year then 29 else 28)
  else if month == 4 || month == 6 || month == 9 || month == 11 then 30 else 31

/-- The days from the first of January of the year 1970 to a date. Years are counted from March on,
so that the leap day comes last. -/
def dayNumber (year month day : Int) : Int :=
  let y := if month ≤ 2 then year - 1 else year
  let monthFromMarch := (month + 9) % 12
  let dayOfYear := (153 * monthFromMarch + 2) / 5 + day - 1
  y * 365 + y.fdiv 4 - y.fdiv 100 + y.fdiv 400 + dayOfYear - 719468

structure Instant where
  micros : Int
  deriving DecidableEq, Repr

def dateOf (day : Int) : Int × Int × Int :=
  let z := day + 719468
  let era := z.fdiv 146097
  let dayOfEra := z - era * 146097
  let yearOfEra := (dayOfEra - dayOfEra / 1460 + dayOfEra / 36524 - dayOfEra / 146096) / 365
  let dayOfYear := dayOfEra - (365 * yearOfEra + yearOfEra / 4 - yearOfEra / 100)
  let monthFromMarch := (5 * dayOfYear + 2) / 153
  let dayOfMonth := dayOfYear - (153 * monthFromMarch + 2) / 5 + 1
  let month := if monthFromMarch < 10 then monthFromMarch + 3 else monthFromMarch - 9
  (yearOfEra + era * 400 + (if month ≤ 2 then 1 else 0), month, dayOfMonth)

def padded (width : Nat) (n : Int) : String :=
  let digits := toString n
  String.ofList (List.replicate (width - digits.length) '0') ++ digits

def Instant.text (t : Instant) : String :=
  let seconds := t.micros.fdiv 1000000
  let fraction := t.micros.fmod 1000000
  let (year, month, day) := dateOf (seconds.fdiv 86400)
  let second := seconds.fmod 86400
  padded 4 year ++ "-" ++ padded 2 month ++ "-" ++ padded 2 day ++ "T" ++
    padded 2 (second / 3600) ++ ":"
    ++ padded 2 (second / 60 % 60) ++ ":" ++ padded 2 (second % 60)
    ++ (if fraction = 0 then "" else "." ++ padded 6 fraction) ++ "+00:00"

/-! ### Stamps -/

structure TimeOfDay where
  hour : Int
  minute : Int
  second : Int
  micros : Int := 0
  offset : Option Int := none
  deriving DecidableEq, Repr

structure Stamp where
  year : Int
  month : Int
  day : Int
  time : Option TimeOfDay := none
  deriving DecidableEq, Repr

def Stamp.localMicros (s : Stamp) (t : TimeOfDay) : Int :=
  (((dayNumber s.year s.month s.day * 24 + t.hour) * 60 + t.minute) * 60 + t.second) * 1000000 +
    t.micros

def Stamp.same (a b : Stamp) : Bool :=
  match a.time, b.time with
  | none, none => a == b
  | some s, some t =>
    match s.offset, t.offset with
    | none, none => a.localMicros s == b.localMicros t
    | some x, some y => a.localMicros s - x * 1000000 == b.localMicros t - y * 1000000
    | _, _ => false
  | _, _ => false

def shownSpan (span : Int) : String :=
  let seconds := span.emod 86400
  let days := span.ediv 86400
  let parts := (if days == 0 then [] else ["days=" ++ toString days])
    ++ (if seconds == 0 then [] else ["seconds=" ++ toString seconds])
  "datetime.timedelta(" ++ ", ".intercalate parts ++ ")"

def shownOffset (offset : Int) : String :=
  if offset == 0 then "datetime.timezone.utc" else "datetime.timezone(" ++ shownSpan offset ++ ")"

def Stamp.shown (s : Stamp) : String :=
  let date := [s.year, s.month, s.day]
  match s.time with
  | none => "datetime.date(" ++ ", ".intercalate (date.map toString) ++ ")"
  | some t =>
    let seconds := if t.second == 0 && t.micros == 0 then [] else [t.second]
    let micros := if t.micros == 0 then [] else [t.micros]
    let numbers := (date ++ [t.hour, t.minute] ++ seconds ++ micros).map toString
    let zone := match t.offset with
      | none => []
      | some offset => ["tzinfo=" ++ shownOffset offset]
    "datetime.datetime(" ++ ", ".intercalate (numbers ++ zone) ++ ")"

inductive StampError
  | year (n : Int)
  | month
  | day
  | hour
  | minute
  | second
  | offset (span : Int)
  deriving DecidableEq, Repr

def StampError.message : StampError → String
  | .year n => "year " ++ toString n ++ " is out of range"
  | .month => "month must be in 1..12"
  | .day => "day is out of range for month"
  | .hour => "hour must be in 0..23"
  | .minute => "minute must be in 0..59"
  | .second => "second must be in 0..59"
  | .offset span =>
    "offset must be a timedelta strictly between -timedelta(hours=24) and timedelta(hours=24), not "
      ++ shownSpan span ++ "."

def TimeOfDay.check (t : TimeOfDay) : Except StampError Unit :=
  if 23 < t.hour then .error .hour
  else if 59 < t.minute then .error .minute
  else if 59 < t.second then .error .second
  else .ok ()

def Stamp.check (s : Stamp) : Except StampError Unit := do
  match s.time.bind (·.offset) with
  | some offset => if offset ≤ -86400 || 86400 ≤ offset then throw (.offset offset)
  | none => pure ()
  if s.year < 1 then throw (.year s.year)
  if !(1 ≤ s.month && s.month ≤ 12) then throw .month
  if !(1 ≤ s.day && s.day ≤ daysInMonth s.year s.month) then throw .day
  match s.time with
  | some t => t.check
  | none => pure ()

def digits? (least most : Nat) (cs : List Char) : Option (Int × List Char) :=
  let taken := (cs.take most).takeWhile Char.isDigit
  if least ≤ taken.length then
    some (taken.foldl (fun n c => 10 * n + (c.toNat - 48 : Nat)) 0, cs.drop taken.length)
  else none

def mark? (c : Char) (cs : List Char) : Option (List Char) := match cs with
  | d :: rest => if c == d then some rest else none
  | [] => none

def isGap (c : Char) : Bool := c == ' ' || c == '\t'

def fraction (cs : List Char) : Int × List Char :=
  match cs with
  | '.' :: rest =>
    let taken := rest.takeWhile Char.isDigit
    let six := (taken ++ List.replicate 6 '0').take 6
    (six.foldl (fun n c => 10 * n + (c.toNat - 48 : Nat)) 0, rest.drop taken.length)
  | cs => (0, cs)

def offset? (cs : List Char) : Option (Option Int) :=
  if cs.isEmpty then some none
  else match cs.dropWhile isGap with
    | ['Z'] => some (some 0)
    | sign :: rest =>
      if sign == '+' || sign == '-' then do
        let (hours, rest) ← digits? 1 2 rest
        let minutes ← match rest with
          | [] => pure 0
          | rest => do
            let (minutes, rest) ← digits? 2 2 (← mark? ':' rest)
            if rest.isEmpty then pure minutes else none
        let span := (hours * 60 + minutes) * 60
        pure (some (if sign == '-' then -span else span))
      else none
    | [] => none

def timeOfDay? (cs : List Char) : Option TimeOfDay := do
  let (hour, cs) ← digits? 1 2 cs
  let (minute, cs) ← digits? 2 2 (← mark? ':' cs)
  let (second, cs) ← digits? 2 2 (← mark? ':' cs)
  let (micros, cs) := fraction cs
  pure ⟨hour, minute, second, micros, ← offset? cs⟩

/-- A date, with or without a time of day behind the letter T or blanks. Whether it
exists is not looked at. -/
def Stamp.read? (cs : List Char) : Option Stamp := do
  let (year, cs) ← digits? 4 4 cs
  let (month, cs) ← digits? 1 2 (← mark? '-' cs)
  let (day, cs) ← digits? 1 2 (← mark? '-' cs)
  match cs with
  | [] => pure ⟨year, month, day, none⟩
  | c :: rest =>
    if c == 'T' || c == 't' then pure ⟨year, month, day, some (← timeOfDay? rest)⟩
    else if isGap c then pure ⟨year, month, day, some (← timeOfDay? (rest.dropWhile isGap))⟩
    else none

end Booru.Time
