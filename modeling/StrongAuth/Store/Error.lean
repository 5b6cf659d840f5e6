import StrongAuth.Sca.Status

set_option autoImplicit false

namespace StrongAuth

inductive StoreError where
  | database (text : String)
  /-- The authorisation was written since the quoted version. -/
  | stale (id : String) (version : Int)
  | terminal (id : String) (status : Sca.Status)
  | unknownAuthorisation (id : String)
  | unknownConsent (id : String)
  | unknownPayment (id : String)
  | alreadyExists (what : String)
  /-- A stored text does not decode. -/
  | corrupt (reason : String)
  deriving DecidableEq, Repr

namespace StoreError

def message : StoreError → String
  | database text =>
    s!"We have an internal database engine (configuration/uptime etc.) error: {text}"
  | stale id version =>
    s!"Authorisation {id} was modified by someone else since version {version} was read"
  | terminal id status =>
    s!"Authorisation {id} is {status.name} and can no longer be modified"
  | unknownAuthorisation id => s!"The requested authorisation {id} does not exist"
  | unknownConsent id => s!"The requested consent {id} does not exist"
  | unknownPayment id => s!"The requested payment {id} does not exist"
  | alreadyExists what => s!"Cannot insert {what}, since it already exists"
  | corrupt reason => s!"A stored record could not be read. {reason}"

def isStale : StoreError → Bool
  | stale _ _ => true
  | _ => false

end StoreError

end StrongAuth
