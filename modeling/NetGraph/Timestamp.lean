import NetGraph.Text.Blank

/-!
# Points in time

* `Date` : a day of the Gregorian calendar, with the days before and after it;
* `Timestamp` : a date and a time of day in UTC, to the nanosecond; the second 60 is a leap second;
* `Timestamp.ofText` : reads the form of RFC 3339 with some freedom: white space before a number,
  before a separator and at the end, a year of any length after a sign, a blank for the `T`, any case
  of `T` and `Z`, the zone `UTC`, and an offset with other separators than one colon or with none;
* `Timestamp.text` : the same moment in RFC 3339, with as many places of a second as are needed out
  of 0, 3, 6 and 9.
-/

namespace NetGraph

/-- A day of the Gregorian calendar, carried on into the past and the future. -/
structure Date where
  year : Int
  month : Nat
  day : Nat
  deriving DecidableEq, Repr

namespace Date

def isLeapYear (y : Int) : Bool := y % 4 = 0 && (y % 100 ≠ 0 || y % 400 = 0)

/-- The number of days of a month; none for what is no month. -/
def daysIn (y : Int) (month : Nat) : Nat :=
  if month = 2 then if isLeapYear y then 29 else 28
  else if month ∈ [4, 6, 9, 11] then 30
  else if 1 ≤ month ∧ month ≤ 12 then 31
  else 0

/-- The years of which dates are known. -/
def hasYear (y : Int) : Bool := -262143 ≤ y && y ≤ 262142

/-- The day with these numbers, if there is one. -/
def ofNumbers? (year : Int) (month day : Nat) : Option Date :=
  if hasYear year ∧ 1 ≤ day ∧ day ≤ daysIn year month then some ⟨year, month, day⟩ else none

/-- The day after. -/
def next? (d : Date) : Option Date :=
  if d.day < daysIn d.year d.month then some { d with day := d.day + 1 }
  else if d.month < 12 then some ⟨d.year, d.month + 1, 1⟩
  else ofNumbers? (d.year + 1) 1 1

/-- The day before. -/
def previous? (d : Date) : Option Date :=
  if 1 < d.day then some { d with day := d.day - 1 }
  else if 1 < d.month then some ⟨d.year, d.month - 1, daysIn d.year (d.month - 1)⟩
  else ofNumbers? (d.year - 1) 12 31

end Date

/-- A moment in UTC. -/
structure Timestamp where
  date : Date
  /-- The minute of the day. -/
  minute : Nat
  /-- 0 to 60. -/
  second : Nat
  nanos : Nat
  deriving DecidableEq, Repr

/-- Why a text is no moment. -/
inductive TimestampError where
  | outOfRange
  /-- The moment is known, but not its date in UTC. -/
  | impossible
  | strayCharacter
  | tooShort
  | tooLong
  deriving DecidableEq, Repr

def TimestampError.message : TimestampError → String
  | outOfRange => "input is out of range"
  | impossible => "no possible date and time matching input"
  | strayCharacter => "input contains invalid characters"
  | tooShort => "premature end of input"
  | tooLong => "trailing input"

namespace Timestamp

/-! ## Reading -/

/-- A reading of the characters that are left. -/
abbrev Scan := StateT (List Char) (Except TimestampError)

/-- Passes over white space. -/
def blanks : Scan Unit := modify Text.trimStart

/-- The value of digits. -/
def valueOf (ds : List Char) : Nat := ds.foldl (fun n c => 10 * n + (c.toNat - '0'.toNat)) 0

/-- The first `limit` digits, or all of them; at least one has to be there. -/
def digits (limit : Option Nat) : Scan (List Char) := do
  let cs ← get
  let ds := (limit.elim cs (cs.take ·)).takeWhile Char.isDigit
  if cs.isEmpty then throw .tooShort
  else if ds.isEmpty then throw .strayCharacter
  else
    set (cs.drop ds.length)
    return ds

/-- A number of up to two digits from `low` to `high`. -/
def field (low high : Nat) : Scan Nat := do
  blanks
  let n := valueOf (← digits (some 2))
  if low ≤ n ∧ n ≤ high then return n else throw .outOfRange

/-- Four digits, or a sign and any number of them. -/
def year : Scan Int := do
  blanks
  let n : Int ← match ← get with
    | '-' :: rest => do set rest; pure (-(valueOf (← digits none) : Int))
    | '+' :: rest => do set rest; pure (valueOf (← digits none) : Int)
    | _ => do pure (valueOf (← digits (some 4)) : Int)
  -- the numbers of 32 bits
  if -0x80000000 ≤ n ∧ n < 0x80000000 then return n else throw .outOfRange

/-- White space, then the character `c`. -/
def separator (c : Char) : Scan Unit := do
  blanks
  match ← get with
  | [] => throw .tooShort
  | d :: rest => if d = c then set rest else throw .strayCharacter

/-- What stands between the date and the time. -/
def dateEnd : Scan Unit := do
  match ← get with
  | [] => throw .tooShort
  | c :: rest => if c ∈ ['t', 'T', ' '] then set rest else throw .strayCharacter

/-- The places of a second in nanoseconds; what is finer is passed over. -/
def fraction : Scan Nat := do
  match ← get with
  | '.' :: rest =>
    set rest
    let ds ← digits (some 9)
    modify (·.dropWhile Char.isDigit)
    return valueOf ds * Nat.pow 10 (9 - ds.length)
  | _ => return 0

/-- Two digits without white space before them. -/
def pair : Scan (Char × Char) := do
  match ← get with
  | a :: b :: rest =>
    if a.isDigit ∧ b.isDigit then
      set rest
      return (a, b)
    else throw .strayCharacter
  | [a] => throw (if a.toNat < 0x80 then .tooShort else .strayCharacter)
  | [] => throw .tooShort

/-- Hours and minutes after a sign, as minutes. -/
def offsetSize : Scan Nat := do
  let (h₁, h₂) ← pair
  modify (·.dropWhile fun c => c = ':' || Text.isSpace c)
  let (m₁, m₂) ← pair
  if valueOf [m₁] < 6 then return 60 * valueOf [h₁, h₂] + valueOf [m₁, m₂] else throw .outOfRange

/-- How many minutes the local time is ahead of UTC. -/
def offset : Scan Int := do
  blanks
  let cs ← get
  if (cs.take 3).map Char.toUpper = ['U', 'T', 'C'] then
    set (cs.drop 3)
    return 0
  else match cs with
    | [] => throw .tooShort
    | c :: rest =>
      set rest
      if c = 'Z' ∨ c = 'z' then return 0
      else if c = '+' then return (← offsetSize : Int)
      -- the hyphen, or the minus sign of mathematics
      else if c = '-' ∨ c.toNat = 0x2212 then return -(← offsetSize : Int)
      else throw .strayCharacter

/-- The number of minutes of a day. -/
def minutesPerDay : Nat := 1440

/-- The moment that is `offset` minutes earlier than the local time says. -/
def ofLocal (date : Date) (minute second nanos : Nat) (offset : Int) :
    Except TimestampError Timestamp :=
  let shifted := (minute : Int) - offset
  let day : Option Date :=
    if shifted < 0 then date.previous?
    else if shifted < minutesPerDay then some date
    else date.next?
  match day with
  | some d => pure ⟨d, (shifted % minutesPerDay).toNat, second, nanos⟩
  | none => throw .impossible

def scan : Scan Timestamp := do
  let y ← year
  separator '-'
  let month ← field 1 12
  separator '-'
  let day ← field 1 31
  dateEnd
  let hour ← field 0 23
  separator ':'
  let minute ← field 0 59
  separator ':'
  let second ← field 0 60
  let nanos ← fraction
  let offset ← offset
  blanks
  if !(← get).isEmpty then throw .tooLong
  else match Date.ofNumbers? y month day with
    | none => throw .outOfRange
    | some date =>
      if offset.natAbs < minutesPerDay then ofLocal date (60 * hour + minute) second nanos offset
      else throw .outOfRange

/-- The moment that a text names. -/
def ofText (s : String) : Except TimestampError Timestamp := (scan.run s.toList).map (·.1)

/-! ## Writing -/

/-- A number with zeros in front, up to `width` digits. -/
def padded (width n : Nat) : String :=
  let ds := Nat.toDigits 10 n
  String.ofList (List.replicate (width - ds.length) '0' ++ ds)

/-- Four digits; outside them a sign and at least four digits. -/
def yearText (y : Int) : String :=
  if 0 ≤ y ∧ y ≤ 9999 then padded 4 y.toNat
  else (if y < 0 then "-" else "+") ++ padded 4 y.natAbs

def fractionText (nanos : Nat) : String :=
  if nanos = 0 then ""
  else if nanos % 1000000 = 0 then "." ++ padded 3 (nanos / 1000000)
  else if nanos % 1000 = 0 then "." ++ padded 6 (nanos / 1000)
  else "." ++ padded 9 nanos

/-- The moment in RFC 3339. -/
def text (t : Timestamp) : String :=
  yearText t.date.year ++ "-" ++ padded 2 t.date.month ++ "-" ++ padded 2 t.date.day ++ "T"
    ++ padded 2 (t.minute / 60) ++ ":" ++ padded 2 (t.minute % 60) ++ ":" ++ padded 2 t.second
    ++ fractionText t.nanos ++ "Z"

end Timestamp
end NetGraph
