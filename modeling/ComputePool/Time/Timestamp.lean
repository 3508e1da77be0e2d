import ComputePool.Text.Blank
import ComputePool.Text.Digits
import ComputePool.Time.Calendar
import ComputePool.Time.Instant

/-!
# Timestamps

The text of an instant, after RFC 3339. An instant is written in UTC with a `Z`, with no fraction
if it falls on a whole second and with three, six or nine places otherwise, whichever is exact
first. Years outside 0 to 9999 carry a sign.

`Instant.ofText?` reads more than it writes: any offset from UTC, any number of places, a blank or
a small letter for the `T`, blanks around the numbers, and fields of fewer digits.
-/

namespace ComputePool.Instant

open Text

/-! ## Writing -/

/-- Four digits for the years 0 to 9999, and a sign and at least four digits for the others. -/
def yearText (year : Int) : List Char :=
  if 0 ≤ year ∧ year ≤ 9999 then Digits.fixed 4 year.toNat
  else (if year < 0 then '-' else '+') :: Digits.padded 4 year.natAbs

/-- The fraction of a second in three, six or nine places, and nothing for none. -/
def fractionText (nanos : Nat) : List Char :=
  if nanos = 0 then []
  else if nanos % 1000000 = 0 then '.' :: Digits.fixed 3 (nanos / 1000000)
  else if nanos % 1000 = 0 then '.' :: Digits.fixed 6 (nanos / 1000)
  else '.' :: Digits.fixed 9 nanos

/-- The characters of an instant's text. A leap second is the second number 60 of its minute. -/
def chars (i : Instant) : List Char :=
  let date := Date.ofDays (i.second / 86400)
  let inDay := (i.second % 86400).toNat
  let second := inDay % 60 + i.nano / 1000000000
  yearText date.year ++ '-' :: Digits.fixed 2 date.month ++ '-' :: Digits.fixed 2 date.day ++
    'T' :: Digits.fixed 2 (inDay / 3600) ++ ':' :: Digits.fixed 2 (inDay / 60 % 60) ++
    ':' :: Digits.fixed 2 second ++ fractionText (i.nano % 1000000000) ++ ['Z']

/-- The text of an instant. -/
def text (i : Instant) : String := String.ofList i.chars

/-! ## Reading -/

/-- The first and last year of the calendar. -/
def firstYear : Int := -262143

/-- The last year of the calendar. -/
def lastYear : Int := 262142

/-- Takes one given character off the front. -/
def literal? (c : Char) : List Char → Option (List Char)
  | [] => none
  | d :: rest => if d = c then some rest else none

/-- A year: at most four digits, or a sign and any number of them. -/
def readYear? : List Char → Option (Int × List Char)
  | '-' :: rest => (Digits.read? none rest).map fun (n, rest) => (-(n : Int), rest)
  | '+' :: rest => (Digits.read? none rest).map fun (n, rest) => ((n : Int), rest)
  | cs => (Digits.read? (some 4) cs).map fun (n, rest) => ((n : Int), rest)

/-- A field of one or two digits, blanks before it allowed. -/
def readField? (cs : List Char) : Option (Nat × List Char) :=
  Digits.read? (some 2) (skipBlanks cs)

/-- The nanoseconds that a fraction of a second denotes; places past the ninth are dropped. -/
def nanosOfPlaces (places : List Char) : Nat :=
  let kept := places.take 9
  Digits.value (kept ++ List.replicate (9 - kept.length) '0')

/-- A fraction of a second, if there is a point. -/
def readFraction? : List Char → Option (Nat × List Char)
  | '.' :: rest =>
    let places := rest.takeWhile Char.isDigit
    if places.isEmpty then none else some (nanosOfPlaces places, rest.dropWhile Char.isDigit)
  | cs => some (0, cs)

/-- The letter or blank between date and time. -/
def readSeparator? : List Char → Option (List Char)
  | 'T' :: rest => some rest
  | 't' :: rest => some rest
  | ' ' :: rest => some rest
  | _ => none

/-- The two digits of an offset's hours or minutes. -/
def readTwoDigits? : List Char → Option (Nat × List Char)
  | a :: b :: rest =>
    if a.isDigit && b.isDigit then some (Digits.value [a, b], rest) else none
  | _ => none

/-- The hours and minutes of an offset, colons and blanks between them allowed, in seconds. -/
def readHoursMinutes? (cs : List Char) : Option (Nat × List Char) := do
  let (hours, cs) ← readTwoDigits? cs
  let (minutes, cs) ← readTwoDigits? (cs.dropWhile fun c => c == ':' || isBlank c)
  if minutes < 60 then some (hours * 3600 + minutes * 60, cs) else none

/-- The offset from UTC in seconds: `Z`, the word `UTC`, or signed hours and minutes. -/
def readOffset? : List Char → Option (Int × List Char)
  | 'Z' :: rest => some (0, rest)
  | 'z' :: rest => some (0, rest)
  | '+' :: rest => (readHoursMinutes? rest).map fun (n, rest) => ((n : Int), rest)
  | '-' :: rest => (readHoursMinutes? rest).map fun (n, rest) => (-(n : Int), rest)
  | '−' :: rest => (readHoursMinutes? rest).map fun (n, rest) => (-(n : Int), rest)
  | a :: b :: c :: rest =>
    if [a, b, c].map Char.toUpper = ['U', 'T', 'C'] then some (0, rest) else none
  | _ => none

/-- The instant of a local date and time of day at an offset from UTC. The second 60 is a leap
second. -/
def ofLocal? (date : Date) (hour minute second nanos : Nat) (offset : Int) : Option Instant :=
  if firstYear ≤ date.year ∧ date.year ≤ lastYear ∧ date.exists? ∧ hour < 24 ∧ minute < 60 ∧
      second ≤ 60 ∧ offset.natAbs < 86400 then
    let inDay := hour * 3600 + minute * 60 + min second 59
    ofUnix? (date.toDays * 86400 + inDay - offset)
      (if second = 60 then nanos + 1000000000 else nanos)
  else none

/-- Reads the characters of a timestamp. -/
def ofChars? (cs : List Char) : Option Instant := do
  let (year, cs) ← readYear? (skipBlanks cs)
  let cs ← literal? '-' (skipBlanks cs)
  let (month, cs) ← readField? cs
  let cs ← literal? '-' (skipBlanks cs)
  let (day, cs) ← readField? cs
  let cs ← readSeparator? cs
  let (hour, cs) ← readField? cs
  let cs ← literal? ':' (skipBlanks cs)
  let (minute, cs) ← readField? cs
  let cs ← literal? ':' (skipBlanks cs)
  let (second, cs) ← readField? cs
  let (nanos, cs) ← readFraction? cs
  let (offset, cs) ← readOffset? (skipBlanks cs)
  if (skipBlanks cs).isEmpty then ofLocal? ⟨year, month, day⟩ hour minute second nanos offset
  else none

/-- The instant that a timestamp denotes. -/
def ofText? (s : String) : Option Instant := ofChars? s.toList

end ComputePool.Instant
