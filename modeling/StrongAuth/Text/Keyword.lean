import StrongAuth.Text.Blank

set_option autoImplicit false

namespace StrongAuth

class Named (α : Type) where
  all : List α
  name : α → String

def Named.find? {α : Type} [Named α] (text : String) : Option α :=
  (Named.all : List α).find? fun a => Named.name a == text

/-- A named set that is also read from free text. The title stands in the error for an unknown word. -/
class Keyword (α : Type) extends Named α where
  title : String

structure UnknownWord where
  title : String
  word : String
  deriving Repr, DecidableEq

namespace UnknownWord

def message (e : UnknownWord) : String := s!"Invalid {e.title}: {e.word}"

end UnknownWord

namespace Keyword

/-- Names are compared after the text is trimmed and its ASCII letters are in upper case. -/
def read {α : Type} [Keyword α] (text : String) : Except UnknownWord α :=
  let word := Text.upper (Text.trim text)
  match Named.find? word with
  | some a => .ok a
  | none => .error ⟨title α, word⟩

end Keyword

end StrongAuth
