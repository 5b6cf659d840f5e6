set_option autoImplicit false

/-!
# JSON values

A value keeps what a decoder may want to refuse later: a number is the numeral as it stood in the
text, an object is the list of its members with repetitions, and a string is `none` when its text
is damaged (a lone surrogate, a byte that is no character). A damaged string spoils only a decoder that
looks at it, so members that nobody asks for are free to hold one.
-/
namespace StrongAuth

/-- A number as it was written: digits before the point, after it, and of the exponent. -/
structure Numeral where
  negative : Bool
  whole : List Char
  fraction : Option (List Char) := none
  exponent : Option (Bool × List Char) := none
  deriving DecidableEq, Repr

inductive Json where
  | null
  | bool (b : Bool)
  | number (n : Numeral)
  | string (s : Option String)
  | array (items : List Json)
  | object (members : List (Option String × Json))
  deriving Repr

namespace Json

def text (s : String) : Json := .string (some s)

mutual
def height : Json → Nat
  | .array items => itemsHeight items + 1
  | .object members => membersHeight members + 1
  | _ => 0

def itemsHeight : List Json → Nat
  | [] => 0
  | v :: rest => max v.height (itemsHeight rest)

def membersHeight : List (Option String × Json) → Nat
  | [] => 0
  | (_, v) :: rest => max v.height (membersHeight rest)
end

mutual
/-- Every number in the value passes the test, and every string and key is undamaged. -/
def isSound (fits : Numeral → Bool) : Json → Bool
  | .number n => fits n
  | .string s => s.isSome
  | .array items => areSound fits items
  | .object members => membersSound fits members
  | _ => true

def areSound (fits : Numeral → Bool) : List Json → Bool
  | [] => true
  | v :: rest => v.isSound fits && areSound fits rest

def membersSound (fits : Numeral → Bool) : List (Option String × Json) → Bool
  | [] => true
  | (k, v) :: rest => k.isSome && v.isSound fits && membersSound fits rest
end

end Json

end StrongAuth
