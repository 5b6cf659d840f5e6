import StrongAuth.Text.Blank

set_option autoImplicit false

namespace StrongAuth

structure Secret where
  reveal : String
  deriving DecidableEq

namespace Secret

def isBlank (s : Secret) : Bool := Text.isBlank s.reveal

/-- Exact comparison; case and blanks count. -/
def matchesCode (a b : Secret) : Bool := a.reveal == b.reveal

/-- The printed form, which says nothing about the secret. -/
def masked (_ : Secret) : String := "****"

instance : ToString Secret := ⟨masked⟩

instance : Repr Secret := ⟨fun s _ => s.masked⟩

def isGiven (field : Option Secret) : Bool := Text.isGiven (field.map reveal)

end Secret

end StrongAuth
