import StrongAuth.Engine.Request
import StrongAuth.TppMessage

set_option autoImplicit false

namespace StrongAuth

structure Outcome where
  parentId : String
  authorisationId : String
  status : Sca.Status
  methods : List Sca.Method := []
  method : Option Sca.Method := none
  challenge : Option Sca.Challenge := none
  psuMessage : Option String := none
  parentStatus : Option Parent.Status := none
  secret : Option Secret := none
  error : Option TppMessage := none
  deriving DecidableEq, Repr

namespace Outcome

def isSuccess (o : Outcome) : Bool := o.error.isNone

end Outcome

namespace Attempt

def advance (a : Attempt) (next : Sca.Status) : Outcome :=
  { parentId := a.parentId, authorisationId := a.authorisationId, status := next }

def wait (a : Attempt) : Outcome := a.advance a.status

/-- The step was refused; the PSU may try again. -/
def reject (a : Attempt) (m : TppMessage) : Outcome := { a.wait with error := some m }

def fail (a : Attempt) (m : TppMessage) : Outcome :=
  { a.advance .failed with error := some m }

def rejectInvalid (a : Attempt) (code : TppMessage.Code) (text : String) : Outcome :=
  a.reject (.validation a.area code text)

def rejectBusiness (a : Attempt) (code : TppMessage.Code) (text : String) : Outcome :=
  a.reject (.business a.area code text)

def failBusiness (a : Attempt) (code : TppMessage.Code) (text : String) : Outcome :=
  a.fail (.business a.area code text)

def rejectFault (a : Attempt) (fault : Bank.Fault) : Outcome := a.reject (.ofFault a.area fault)

def rejectStore (a : Attempt) (e : StoreError) : Outcome := a.reject (.ofStoreError a.area e)

def rejectMissing (a : Attempt) (field : String) : Outcome :=
  a.rejectInvalid .formatError
    s!"The {field} is required when the authorisation is {a.status.name}"

end Attempt

end StrongAuth
