set_option autoImplicit false

namespace StrongAuth.Sca

structure Method where
  sort : String
  id : String
  name : Option String := none
  explanation : Option String := none
  decoupled : Bool := false
  deriving DecidableEq, Repr

structure Challenge where
  data : List String := []
  otpFormat : Option String := none
  otpMaxLength : Option Int := none
  information : Option String := none
  imageLink : Option String := none
  deriving DecidableEq, Repr

end StrongAuth.Sca
