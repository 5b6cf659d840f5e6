import StrongAuth.Bank.Answer
import StrongAuth.Store.Error

set_option autoImplicit false

namespace StrongAuth

namespace TppMessage

inductive Category where
  /-- The request lacks what the current step needs. Nothing was changed. -/
  | validation
  /-- The bank turned the PSU or the operation down. -/
  | business
  /-- The bank gave no answer. The status is unchanged. -/
  | backend
  /-- The store failed or refused. The status is unchanged. -/
  | persistence
  deriving DecidableEq, Repr

instance : Named Category where
  all := [.validation, .business, .backend, .persistence]
  name
    | .validation => "VALIDATION"
    | .business => "BUSINESS"
    | .backend => "BACKEND"
    | .persistence => "PERSISTENCE"

inductive Code where
  | formatError
  | formatErrorScaStatus
  | psuCredentialsInvalid
  | scaMethodUnknown
  | scaInvalid
  | statusInvalid
  | serviceInvalid
  | resourceUnknown
  | paymentFailed
  | consentInvalid
  | internalServerError
  deriving DecidableEq, Repr

instance : Named Code where
  all := [.formatError, .formatErrorScaStatus, .psuCredentialsInvalid, .scaMethodUnknown,
    .scaInvalid, .statusInvalid, .serviceInvalid, .resourceUnknown, .paymentFailed,
    .consentInvalid, .internalServerError]
  name
    | .formatError => "FORMAT_ERROR"
    | .formatErrorScaStatus => "FORMAT_ERROR_SCA_STATUS"
    | .psuCredentialsInvalid => "PSU_CREDENTIALS_INVALID"
    | .scaMethodUnknown => "SCA_METHOD_UNKNOWN"
    | .scaInvalid => "SCA_INVALID"
    | .statusInvalid => "STATUS_INVALID"
    | .serviceInvalid => "SERVICE_INVALID"
    | .resourceUnknown => "RESOURCE_UNKNOWN"
    | .paymentFailed => "PAYMENT_FAILED"
    | .consentInvalid => "CONSENT_INVALID"
    | .internalServerError => "INTERNAL_SERVER_ERROR"

end TppMessage

structure TppMessage where
  area : Area
  category : TppMessage.Category
  code : TppMessage.Code
  text : Option String := none
  deriving DecidableEq, Repr

namespace TppMessage

def validation (area : Area) (code : Code) (text : String) : TppMessage :=
  ⟨area, .validation, code, some text⟩

def business (area : Area) (code : Code) (text : String) : TppMessage :=
  ⟨area, .business, code, some text⟩

/-- What is not supported is an invalid service; every other fault is an internal error. -/
def ofFault (area : Area) (fault : Bank.Fault) : TppMessage :=
  let code := match fault with
    | .unsupported _ => Code.serviceInvalid
    | _ => Code.internalServerError
  ⟨area, .backend, code, some fault.message⟩

def ofStoreError (area : Area) (e : StoreError) : TppMessage :=
  ⟨area, .persistence, .internalServerError, some e.message⟩

def line (m : TppMessage) : String :=
  let head := s!"{m.area.label}/{Named.name m.code}"
  match m.text with
  | some text => s!"{head}: {text}"
  | none => head

end TppMessage

end StrongAuth
