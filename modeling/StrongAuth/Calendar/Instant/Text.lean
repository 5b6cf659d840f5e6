import StrongAuth.Calendar.Date.Text
import StrongAuth.Calendar.Instant

set_option autoImplicit false

namespace StrongAuth.Calendar.Instant
open StrongAuth.Text

def takeFixed (width : Nat) (cs : List Char) : Option (Nat × List Char) :=
  if (cs.take width).length = width then
    (natural? (cs.take width)).map fun n => (n, cs.drop width)
  else none

def takeMark (marks : List Char) : List Char → Option (List Char)
  | c :: rest => if marks.contains c then some rest else none
  | [] => none

/-- The nanoseconds after the point; digits beyond the ninth are dropped. -/
def takeFraction : List Char → Option (Nat × List Char)
  | '.' :: rest =>
    let digits := rest.takeWhile isDigit
    let kept := (digits ++ List.replicate 9 '0').take 9
    (natural? digits).bind fun _ =>
      (natural? kept).map fun n => (n, rest.drop digits.length)
  | rest => some (0, rest)

/-- The offset from UTC in seconds. Its minus may be a hyphen or the minus sign U+2212. -/
def takeOffset (cs : List Char) : Option (Int × List Char) :=
  let hoursMinutes (sign : Int) (rest : List Char) : Option (Int × List Char) := do
    let (h, rest) ← takeFixed 2 rest
    let rest ← takeMark [':'] rest
    let (m, rest) ← takeFixed 2 rest
    if h ≤ 23 ∧ m ≤ 59 then some (sign * (3600 * h + 60 * m), rest) else none
  match cs with
  | 'Z' :: rest | 'z' :: rest => some (0, rest)
  | '+' :: rest => hoursMinutes 1 rest
  | '-' :: rest | '\u2212' :: rest => hoursMinutes (-1) rest
  | _ => none

/-- Reads an RFC 3339 timestamp. Second 60 is second 59 with a full second of extra nanoseconds. -/
def ofText? (s : String) : Option Instant := do
  let (year, rest) ← takeFixed 4 s.toList
  let rest ← takeMark ['-'] rest
  let (month, rest) ← takeFixed 2 rest
  let rest ← takeMark ['-'] rest
  let (day, rest) ← takeFixed 2 rest
  let rest ← takeMark ['T', 't', ' '] rest
  let (hour, rest) ← takeFixed 2 rest
  let rest ← takeMark [':'] rest
  let (minute, rest) ← takeFixed 2 rest
  let rest ← takeMark [':'] rest
  let (second, rest) ← takeFixed 2 rest
  let (nanos, rest) ← takeFraction rest
  let (offset, rest) ← takeOffset rest
  let date ← Date.of? year month day
  if rest.isEmpty ∧ hour ≤ 23 ∧ minute ≤ 59 ∧ second ≤ 60 then
    let whole : Int := date.dayNumber * 86400 + 3600 * hour + 60 * minute + min second 59
    some { seconds := whole - offset, nanos := nanos + (if second = 60 then 1000000000 else 0) }
  else none

def fractionText (nanos : Nat) : String :=
  if nanos = 0 then ""
  else if nanos % 1000000 = 0 then "." ++ padded 3 (nanos / 1000000)
  else if nanos % 1000 = 0 then "." ++ padded 6 (nanos / 1000)
  else "." ++ padded 9 nanos

/-- The time of day; a second beyond its first thousand million nanoseconds is written as the next. -/
def timeText (secondOfDay nanos : Nat) : String :=
  let extra := nanos / 1000000000
  padded 2 (secondOfDay / 3600) ++ ":" ++ padded 2 (secondOfDay / 60 % 60) ++ ":" ++
    padded 2 (secondOfDay % 60 + extra) ++ fractionText (nanos % 1000000000)

/-- The empty text stands in for an instant outside the covered years. -/
def text (t : Instant) : String :=
  match Date.ofDayNumber? (t.seconds / 86400) with
  | some date => date.text ++ " " ++ timeText (t.seconds % 86400).toNat t.nanos ++ " UTC"
  | none => ""

end StrongAuth.Calendar.Instant
