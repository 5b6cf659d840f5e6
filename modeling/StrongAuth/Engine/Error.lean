import StrongAuth.Bank.Answer
import StrongAuth.Calendar.Instant.Text
import StrongAuth.Parent
import StrongAuth.Store.Error
import StrongAuth.TppMessage

set_option autoImplicit false

namespace StrongAuth

inductive EngineError where
  | configuration (text : String)
  | unsupported (text : String)
  | expired (authorisationId : String) (moment : Calendar.Instant)
  | unknownAuthorisation (id : String)
  | noActiveParent (id : String)
  | alreadyAuthorised (id : String)
  | store (cause : StoreError)
  deriving DecidableEq, Repr

namespace EngineError

def message : EngineError → String
  | configuration text => s!"Configuration error. {text}"
  | unsupported text => s!"Unsupported operation. {text}"
  | expired id t =>
    let time := t.text
    s!"Authorisation {id} expired at {time}"
  | unknownAuthorisation id => s!"Authorisation {id} does not exist"
  | noActiveParent id => s!"{id} does not exist or can no longer be authorised"
  | alreadyAuthorised id => s!"{id} has already been authorised"
  | store cause => s!"Database error: {cause.message}"

def isExpired : EngineError → Bool
  | expired _ _ => true
  | _ => false

end EngineError

inductive EffectError where
  | bank (fault : Bank.Fault)
  | store (cause : StoreError)
  | payload (cause : PayloadError)
  | wrongParent (purpose : Purpose) (parentId : String)
  deriving DecidableEq, Repr

namespace EffectError

def message : EffectError → String
  | bank fault => fault.message
  | store cause => cause.message
  | payload cause => cause.message
  | wrongParent purpose parentId =>
    s!"A {purpose.name} authorisation cannot be applied to {parentId}"

/-- A payment that cannot be read and a parent of the wrong sort count as corrupt records. -/
def toTppMessage (area : Area) : EffectError → TppMessage
  | bank fault => .ofFault area fault
  | store cause => .ofStoreError area cause
  | payload cause => .ofStoreError area (.corrupt cause.message)
  | wrongParent purpose parentId =>
    .ofStoreError area (.corrupt (wrongParent purpose parentId).message)

end EffectError

end StrongAuth
