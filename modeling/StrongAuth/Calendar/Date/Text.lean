import StrongAuth.Calendar.Date
import StrongAuth.Text.Blank
import StrongAuth.Text.Numeral

set_option autoImplicit false

namespace StrongAuth.Calendar.Date
open StrongAuth.Text

def takeDigits (width : Nat) (cs : List Char) : Option (Nat × List Char) :=
  let digits := (cs.take width).takeWhile isDigit
  (natural? digits).map fun n => (n, cs.drop digits.length)

/-- The year at the front of the text. A sign lifts the limit of four digits. -/
def takeYear (cs : List Char) : Option (Int × List Char) :=
  match trimStart cs with
  | '-' :: rest => (takeDigits rest.length rest).map fun p => (-(p.1 : Int), p.2)
  | '+' :: rest => (takeDigits rest.length rest).map fun p => ((p.1 : Int), p.2)
  | rest => (takeDigits 4 rest).map fun p => ((p.1 : Int), p.2)

def takeDashed (cs : List Char) : Option (Nat × List Char) :=
  match trimStart cs with
  | '-' :: rest => takeDigits 2 (trimStart rest)
  | _ => none

def ofText? (s : String) : Option Date := do
  let (year, rest) ← takeYear s.toList
  let (month, rest) ← takeDashed rest
  let (day, rest) ← takeDashed rest
  if (trimStart rest).isEmpty then of? year month day else none

def yearText (year : Int) : String :=
  if year < 0 then "-" ++ padded 4 year.natAbs
  else if 9999 < year then "+" ++ padded 4 year.natAbs
  else padded 4 year.natAbs

def text (d : Date) : String :=
  yearText d.year ++ "-" ++ padded 2 d.month ++ "-" ++ padded 2 d.day

end StrongAuth.Calendar.Date
