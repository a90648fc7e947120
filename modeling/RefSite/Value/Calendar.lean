namespace RefSite

structure Day where
  year : Nat
  month : Nat
  day : Nat
  deriving DecidableEq, Repr, Inhabited

/-- A time of a day, with the distance from universal time in seconds if it is known. -/
structure Moment where
  date : Day
  hour : Nat
  minute : Nat
  second : Nat
  micro : Nat
  offset : Option Int
  deriving DecidableEq, Repr, Inhabited

/-- The number in decimal with at least `width` digits. -/
def padded (width n : Nat) : String :=
  let ds := Nat.toDigits 10 n
  String.ofList (List.replicate (width - ds.length) '0' ++ ds)

namespace Day

/-- Every fourth year, but of the centuries only every fourth. -/
def isLeap (year : Nat) : Bool := year % 4 == 0 && (year % 100 != 0 || year % 400 == 0)

def daysIn (year month : Nat) : Nat :=
  match month with
  | 2 => if isLeap year then 29 else 28
  | 4 | 6 | 9 | 11 => 30
  | _ => 31

/-- The day exists, in the years 1 to 9999. -/
def exists? (d : Day) : Bool :=
  1 ≤ d.year && d.year ≤ 9999 && 1 ≤ d.month && d.month ≤ 12 &&
    1 ≤ d.day && d.day ≤ daysIn d.year d.month

/-- The number of days before the day, from the start of year 1. -/
def ordinal (d : Day) : Nat :=
  let y := d.year - 1
  let before := ((List.range d.month).drop 1).foldl (fun n m => n + daysIn d.year m) 0
  y * 365 + y / 4 - y / 100 + y / 400 + before + d.day

def text (d : Day) : String := padded 4 d.year ++ "-" ++ padded 2 d.month ++ "-" ++ padded 2 d.day

def shown (d : Day) : String :=
  "datetime.date(" ++ toString d.year ++ ", " ++ toString d.month ++ ", " ++ toString d.day ++ ")"

end Day

namespace Moment

/-- The moment exists: its day does, its time is below 24 hours, and so is its offset. -/
def exists? (t : Moment) : Bool :=
  t.date.exists? && t.hour < 24 && t.minute < 60 && t.second < 60 &&
    match t.offset with
    | none => true
    | some s => s.natAbs < 24 * 60 * 60

/-- Seconds of universal time from the start of year 1, taking an unknown offset as none. -/
def seconds (t : Moment) : Int :=
  (t.date.ordinal * 86400 + t.hour * 3600 + t.minute * 60 + t.second : Nat) - t.offset.getD 0

/-- The same instant; a moment with an offset is never the same as one without. -/
def sameInstant (t u : Moment) : Bool :=
  t.offset.isSome == u.offset.isSome && t.seconds == u.seconds && t.micro == u.micro

/-- The offset as sign, hours and minutes. -/
def offsetText (s : Int) : String :=
  let n := s.natAbs
  (if s < 0 then "-" else "+") ++ padded 2 (n / 3600) ++ ":" ++ padded 2 (n / 60 % 60)

def text (t : Moment) : String :=
  t.date.text ++ " " ++ padded 2 t.hour ++ ":" ++ padded 2 t.minute ++ ":" ++ padded 2 t.second ++
    (if t.micro = 0 then "" else "." ++ padded 6 t.micro) ++
    match t.offset with
    | none => ""
    | some s => offsetText s

/-- The form of an offset inside a list or mapping: whole days first, then seconds. -/
def shownOffset (s : Int) : String :=
  if s = 0 then "datetime.timezone.utc"
  else if 0 < s then "datetime.timezone(datetime.timedelta(seconds=" ++ toString s ++ "))"
  else "datetime.timezone(datetime.timedelta(days=-1, seconds=" ++ toString (86400 + s) ++ "))"

/-- The form of a moment inside a list or mapping; zero seconds at the end are left out. -/
def shown (t : Moment) : String :=
  let all := [t.date.year, t.date.month, t.date.day, t.hour, t.minute]
  let exact := if t.micro ≠ 0 then [t.second, t.micro] else if t.second ≠ 0 then [t.second] else []
  let offset := match t.offset with
    | none => []
    | some s => ["tzinfo=" ++ shownOffset s]
  "datetime.datetime(" ++ ", ".intercalate ((all ++ exact).map toString ++ offset) ++ ")"

end Moment

end RefSite
