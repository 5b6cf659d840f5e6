set_option autoImplicit false

namespace StrongAuth.Text

/-- An ASCII digit. Digits of other scripts do not count. -/
def isDigit (c : Char) : Bool := '0' ≤ c && c ≤ '9'

def digitValue (c : Char) : Nat := c.toNat - '0'.toNat

def numeralValue (digits : List Char) : Nat :=
  digits.foldl (fun n c => 10 * n + digitValue c) 0

def natural? (cs : List Char) : Option Nat :=
  if !cs.isEmpty && cs.all isDigit then some (numeralValue cs) else none

/-- Reads a number without a minus sign that is at most `greatest`. -/
def unsigned? (greatest : Nat) (s : String) : Option Nat :=
  let digits := match s.toList with
    | '+' :: ds => ds
    | ds => ds
  (natural? digits).filter (· ≤ greatest)

/-- Reads a number with an optional sign between `least` and `greatest`. -/
def signed? (least greatest : Int) (s : String) : Option Int :=
  let value := match s.toList with
    | '+' :: ds => (natural? ds).map Int.ofNat
    | '-' :: ds => (natural? ds).map fun n => -Int.ofNat n
    | ds => (natural? ds).map Int.ofNat
  value.filter fun n => decide (least ≤ n) && decide (n ≤ greatest)

def padded (width n : Nat) : String :=
  let digits := Nat.toDigits 10 n
  String.ofList (List.replicate (width - digits.length) '0' ++ digits)

def greatestUInt32 : Nat := 4294967295

def leastInt64 : Int := -9223372036854775808

def greatestInt64 : Int := 9223372036854775807

end StrongAuth.Text
