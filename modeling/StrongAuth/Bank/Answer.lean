import StrongAuth.Parent.Status
import StrongAuth.Sca.Approach
import StrongAuth.Sca.Method
import StrongAuth.Sca.Status
import StrongAuth.Psu
import StrongAuth.Secret
import StrongAuth.Service

set_option autoImplicit false

namespace StrongAuth.Bank

inductive Fault where
  | unavailable (text : String)
  | rejected (text : String)
  | unsupported (text : String)
  deriving DecidableEq, Repr

namespace Fault

def message : Fault → String
  | unavailable text => s!"The ASPSP could not be reached. {text}"
  | rejected text => s!"The ASPSP refused to process the request. {text}"
  | unsupported text => s!"{text} is not supported by the ASPSP"

end Fault

abbrev Answer (α : Type) := Except Fault α

/-- The judgement on credentials, or on the effect of an authorisation. -/
inductive Verdict where
  | success
  /-- Wrong, but the PSU may try again. -/
  | attemptFailure
  /-- Wrong, and there are no more attempts. -/
  | failure
  deriving DecidableEq, Repr

namespace Verdict

instance : Named Verdict where
  all := [.success, .attemptFailure, .failure]
  name
    | .success => "Success"
    | .attemptFailure => "AttemptFailure"
    | .failure => "Failure"

end Verdict

structure Context where
  authorisationId : String
  parentId : String
  purpose : Purpose
  approach : Sca.Approach
  psu : Psu
  deriving DecidableEq, Repr

structure MethodStart where
  method : Sca.Method
  challenge : Option Sca.Challenge := none
  psuMessage : Option String := none
  confirmationCode : Option Secret := none
  deriving DecidableEq, Repr

structure Execution where
  verdict : Verdict
  status : Payment.Status
  deriving DecidableEq, Repr

structure CodeCheck where
  scaStatus : Sca.Status
  paymentStatus : Payment.Status
  deriving DecidableEq, Repr

end StrongAuth.Bank
