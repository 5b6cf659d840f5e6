set_option autoImplicit false

namespace StrongAuth.Text

/-- The code points with the Unicode property `White_Space`. -/
def isBlankChar (c : Char) : Bool :=
  let n := c.toNat
  (0x09 ≤ n && n ≤ 0x0d) || n == 0x20 || n == 0x85 || n == 0xa0 || n == 0x1680 ||
    (0x2000 ≤ n && n ≤ 0x200a) || n == 0x2028 || n == 0x2029 || n == 0x202f || n == 0x205f ||
    n == 0x3000

def trimStart (cs : List Char) : List Char := cs.dropWhile isBlankChar

def trimEnd (cs : List Char) : List Char := (cs.reverse.dropWhile isBlankChar).reverse

def trim (s : String) : String := String.ofList (trimEnd (trimStart s.toList))

/-- A text that holds blanks only, such as the empty one. -/
def isBlank (s : String) : Bool := s.toList.all isBlankChar

def isGiven (field : Option String) : Bool :=
  match field with
  | some s => !isBlank s
  | none => false

def upper (s : String) : String := s.map Char.toUpper

def lower (s : String) : String := s.map Char.toLower

end StrongAuth.Text
