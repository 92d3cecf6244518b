import LedgerPost.Json.Basic
import LedgerPost.Text.Blank
import LedgerPost.Text.Decimal
import LedgerPost.Time.Date

/-!
# Timestamps

Moments in UTC to the nanosecond, and their texts in RFC 3339. A minute may have a 61st second,
whose number is 60. A text is written with exactly three digits of the second, which are cut and
not rounded, so its length depends on the year alone. Many texts are read: with fewer or more
digits, with blanks around numbers, and with an offset from UTC.
-/

namespace LedgerPost

/-- A moment in UTC. -/
structure Timestamp where
  date : Date
  hour : Nat
  minute : Nat
  second : Nat
  nanos : Nat
  hour_lt : hour < 24
  minute_lt : minute < 60
  second_le : second ≤ 60
  nanos_lt : nanos < 1000000000
  deriving DecidableEq

namespace Timestamp

/-- The moment with the given parts. -/
def ofParts? (date : Date) (hour minute second nanos : Nat) : Option Timestamp :=
  if h : hour < 24 ∧ minute < 60 ∧ second ≤ 60 ∧ nanos < 1000000000 then
    some ⟨date, hour, minute, second, nanos, h.1, h.2.1, h.2.2.1, h.2.2.2⟩
  else none

/--
The moment that is a number of seconds after the start of 1970, plus nanoseconds. A second's
worth of nanoseconds or more stands for the 61st second of a minute.
-/
def ofUnix? (seconds : Int) (nanos : Nat) : Option Timestamp := do
  let date ← Date.ofDays? (seconds / 86400)
  let n := (seconds % 86400).toNat
  if nanos < 1000000000 then ofParts? date (n / 3600) (n / 60 % 60) (n % 60) nanos
  else if n % 60 = 59 then ofParts? date (n / 3600) (n / 60 % 60) 60 (nanos - 1000000000)
  else none

/-! ### Writing -/

/-- The digits of a year, with a sign unless there are just four digits. -/
def yearText (year : Int) : List Char :=
  if 0 ≤ year ∧ year ≤ 9999 then Decimal.padded 4 year.toNat
  else (if year < 0 then '-' else '+') :: Decimal.padded 4 year.natAbs

/-- The text of a moment. -/
def text (t : Timestamp) : String :=
  String.ofList <|
    yearText t.date.year ++ '-' :: Decimal.padded 2 t.date.month
      ++ '-' :: Decimal.padded 2 t.date.day
      ++ 'T' :: Decimal.padded 2 t.hour
      ++ ':' :: Decimal.padded 2 t.minute
      ++ ':' :: Decimal.padded 2 t.second
      ++ '.' :: Decimal.padded 3 (t.nanos / 1000000)
      ++ ['Z']

/-! ### Reading -/

/-- Reads digits, as many as there are up to a limit but at least one. -/
def number? (limit : Nat) (s : List Char) : Option (Nat × List Char) :=
  let ds := (s.takeWhile Decimal.isDigit).take limit
  if ds.isEmpty then none else some (Decimal.value ds, s.drop ds.length)

/-- Reads a given character. -/
def mark? (c : Char) : List Char → Option (List Char)
  | [] => none
  | d :: s => if d = c then some s else none

/-- Reads a year, which has more than four digits only after a sign. -/
def year? : List Char → Option (Int × List Char)
  | '-' :: s => (number? s.length s).map fun (n, rest) => (-(n : Int), rest)
  | '+' :: s => (number? s.length s).map fun (n, rest) => ((n : Int), rest)
  | s => (number? 4 s).map fun (n, rest) => ((n : Int), rest)

/-- Reads a date. -/
def date? (s : List Char) : Option (Date × List Char) := do
  let (year, s) ← year? (Text.dropBlanks s)
  let s ← mark? '-' (Text.dropBlanks s)
  let (month, s) ← number? 2 (Text.dropBlanks s)
  let s ← mark? '-' (Text.dropBlanks s)
  let (day, s) ← number? 2 (Text.dropBlanks s)
  return (← Date.ofParts? year month day, s)

/-- Reads what stands between a date and a time of day. -/
def divider? : List Char → Option (List Char)
  | [] => none
  | c :: s => if c = 'T' ∨ c = 't' ∨ c = ' ' then some s else none

/-- Reads a fraction of a second in nanoseconds, if there is one. -/
def nanos? : List Char → Option (Nat × List Char)
  | '.' :: s => do
    let ds := s.takeWhile Decimal.isDigit
    if ds.isEmpty then none
    else
      let kept := ds.take 9
      let filled := kept ++ List.replicate (9 - kept.length) '0'
      some (Decimal.value filled, s.dropWhile Decimal.isDigit)
  | s => some (0, s)

/-- Two digits and what follows them. -/
def twoDigits? : List Char → Option (Nat × List Char)
  | a :: b :: s =>
    if Decimal.isDigit a && Decimal.isDigit b then some (Decimal.value [a, b], s) else none
  | _ => none

/-- Reads an offset in minutes after its sign. -/
def minutes? (s : List Char) : Option (Nat × List Char) := do
  let (hours, s) ← twoDigits? s
  let (minutes, s) ← twoDigits? (s.dropWhile fun c => c == ':' || Text.isBlank c)
  if minutes < 60 ∧ hours < 24 then some (60 * hours + minutes, s) else none

/-- Reads an offset from UTC in minutes. -/
def offset? : List Char → Option (Int × List Char)
  | [] => none
  | c :: s =>
    if ((c :: s).take 3).map Char.toUpper = ['U', 'T', 'C'] then some (0, s.drop 2)
    else if c = 'Z' ∨ c = 'z' then some (0, s)
    else if c = '+' then (minutes? s).map fun (n, rest) => ((n : Int), rest)
    else if c = '-' ∨ c = '−' then (minutes? s).map fun (n, rest) => (-(n : Int), rest)
    else none

/-- The moment in UTC of a local time with an offset in minutes. -/
def ofLocal? (date : Date) (hour minute second nanos : Nat) (offset : Int) : Option Timestamp := do
  let minutes := (60 * hour + minute : Int) - offset
  let date ←
    if minutes < 0 then date.previous?
    else if minutes < 1440 then some date
    else date.next?
  let m := (minutes % 1440).toNat
  ofParts? date (m / 60) (m % 60) second nanos

/-- Reads a text in RFC 3339. -/
def parse? (text : String) : Option Timestamp := do
  let (date, s) ← date? text.toList
  let s ← divider? s
  let (hour, s) ← number? 2 (Text.dropBlanks s)
  let s ← mark? ':' (Text.dropBlanks s)
  let (minute, s) ← number? 2 (Text.dropBlanks s)
  let s ← mark? ':' (Text.dropBlanks s)
  let (second, s) ← number? 2 (Text.dropBlanks s)
  let (nanos, s) ← nanos? s
  let (offset, s) ← offset? (Text.dropBlanks s)
  if hour < 24 ∧ minute < 60 ∧ Text.dropBlanks s = [] then
    ofLocal? date hour minute second nanos offset
  else none

/-- The document of a moment is its text. -/
def toJson (t : Timestamp) : Json := .ofText t.text

/-- Reads the document of a moment. -/
def ofJson? (v : Json) : Option Timestamp := v.text?.bind parse?

end Timestamp

end LedgerPost
