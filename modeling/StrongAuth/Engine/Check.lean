import StrongAuth.Engine.Outcome

set_option autoImplicit false

namespace StrongAuth.Attempt

/-- An authorisation without a PSU belongs to the first one that comes forward. -/
def foreignPsu (a : Attempt) (stored : Authorisation) : Option TppMessage :=
  if stored.psu.isEmpty || a.psu.isSame stored.psu then none
  else some (.business a.area .psuCredentialsInvalid
    s!"Authorisation {stored.id} belongs to another PSU")

def missingField (a : Attempt) : Option String :=
  match a.status with
  | .received | .psuIdentified => if a.hasPassword then none else some "PSU password"
  | .psuAuthenticated => if a.hasMethodId then none else some "authentication method id"
  | .methodSelected => if a.hasData then none else some "SCA authentication data"
  | .started | .finalised | .failed | .exempted => none

def incomplete (a : Attempt) : Option TppMessage :=
  a.missingField.map fun field => .validation a.area .formatError
    s!"The {field} is required when the authorisation is {a.status.name}"

end StrongAuth.Attempt
