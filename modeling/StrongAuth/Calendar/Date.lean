set_option autoImplicit false

namespace StrongAuth.Calendar

def isLeapYear (year : Int) : Bool :=
  year % 4 == 0 && (year % 100 != 0 || year % 400 == 0)

def daysInMonth (year : Int) (month : Nat) : Nat :=
  match month with
  | 2 => if isLeapYear year then 29 else 28
  | 4 | 6 | 9 | 11 => 30
  | _ => 31

def firstYear : Int := -262143

def lastYear : Int := 262142

def isDate (year : Int) (month day : Nat) : Bool :=
  decide (firstYear ≤ year) && decide (year ≤ lastYear) && decide (1 ≤ month) &&
    decide (month ≤ 12) && decide (1 ≤ day) && decide (day ≤ daysInMonth year month)

structure Date where
  year : Int
  month : Nat
  day : Nat
  exists_day : isDate year month day = true
  deriving DecidableEq, Repr

namespace Date

def of? (year : Int) (month day : Nat) : Option Date :=
  if h : isDate year month day = true then some ⟨year, month, day, h⟩ else none

/-- Days from 1970-01-01. The year is counted from March, so that a leap day ends its year, and
years in blocks of four hundred, which all have 146097 days. -/
def dayNumber (d : Date) : Int :=
  let year := if d.month ≤ 2 then d.year - 1 else d.year
  let block := year / 400
  let yearOfBlock := year % 400
  let monthFromMarch : Int := (d.month + 9) % 12
  let dayOfYear := (153 * monthFromMarch + 2) / 5 + d.day - 1
  let dayOfBlock := yearOfBlock * 365 + yearOfBlock / 4 - yearOfBlock / 100 + dayOfYear
  block * 146097 + dayOfBlock - 719468

def ofDayNumber? (n : Int) : Option Date :=
  let z := n + 719468
  let block := z / 146097
  let dayOfBlock := z % 146097
  let yearOfBlock :=
    (dayOfBlock - dayOfBlock / 1460 + dayOfBlock / 36524 - dayOfBlock / 146096) / 365
  let dayOfYear := dayOfBlock - (365 * yearOfBlock + yearOfBlock / 4 - yearOfBlock / 100)
  let monthFromMarch := (5 * dayOfYear + 2) / 153
  let day := dayOfYear - (153 * monthFromMarch + 2) / 5 + 1
  let month := if monthFromMarch < 10 then monthFromMarch + 3 else monthFromMarch - 9
  let year := yearOfBlock + block * 400 + (if month ≤ 2 then 1 else 0)
  of? year month.toNat day.toNat

theorem of?_eq_some (d : Date) : of? d.year d.month d.day = some d := by
  simp [of?, d.exists_day]

end Date

end StrongAuth.Calendar
