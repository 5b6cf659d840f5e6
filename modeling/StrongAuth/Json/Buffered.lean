import StrongAuth.Json.Tree
import StrongAuth.Text.Numeral

set_option autoImplicit false

/-!
# Values that are set aside

Some members have to be set aside before it is known what they are for. Setting a value aside means
understanding all of it: every string is decoded, every number has to fit a double, and there is a
limit to the number of brackets that may be open. A member that is skipped on sight has none of these
duties.
-/
namespace StrongAuth.Json

/-- The greatest number of brackets that may be open at once. -/
def deepestNesting : Nat := 127

/-- The nearest number with 53 significant bits, ties to the even one. -/
def roundToDouble (n : Nat) : Nat :=
  let excess := n.log2 + 1 - 53
  let unit := Nat.pow 2 excess
  let kept := n / unit
  let rest := n % unit
  let up := unit < 2 * rest || (2 * rest == unit && kept % 2 == 1)
  (if up then kept + 1 else kept) * unit

/-- The least number that a double rounds to infinity. -/
def doubleOverflow : Nat := Nat.pow 2 1024 - Nat.pow 2 970

def greatestUInt64 : Nat := 18446744073709551615

def appendDigits (n : Nat) : List Char → Nat × List Char
  | [] => (n, [])
  | d :: rest =>
    let next := 10 * n + Text.digitValue d
    if next ≤ greatestUInt64 then appendDigits next rest else (n, d :: rest)

end StrongAuth.Json

namespace StrongAuth.Numeral
open StrongAuth.Json

/-- The digits that are kept, as an integer of 64 bits, and the power of ten that goes with it. -/
def scaled (n : Numeral) : Nat × Int :=
  let (kept, dropped) := appendDigits 0 n.whole
  let digits := n.fraction.getD []
  let (all, unused) := appendDigits kept digits
  (all, (dropped.length : Int) - ((digits.length : Int) - unused.length))

/-- The value is no larger than the largest double. It is computed as the product of two rounded
factors, so the bound is the one for that product. -/
def fitsDouble (n : Numeral) : Bool :=
  let (significand, scale) := n.scaled
  let (negative, digits) := n.exponent.getD (false, [])
  let written := Text.numeralValue digits
  let isWide := 2147483647 < written
  let power := if negative then scale - written else scale + written
  if significand == 0 then true
  else if negative && isWide then true
  else if isWide || 308 < power then false
  else if power < 0 then true
  else roundToDouble significand * roundToDouble (Nat.pow 10 power.toNat) < doubleOverflow

end StrongAuth.Numeral

namespace StrongAuth.Json

def isBufferable (depth : Nat) (v : Json) : Bool :=
  v.isSound Numeral.fitsDouble && depth + v.height ≤ deepestNesting

end StrongAuth.Json
