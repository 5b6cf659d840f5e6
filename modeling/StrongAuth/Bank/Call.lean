import StrongAuth.Bank.Answer
import StrongAuth.Parent

set_option autoImplicit false

namespace StrongAuth.Bank

inductive Call where
  | exemption
  | credentials
  | methods
  | startMethod
  | verification
  | confirmation
  | execution
  | cancellation
  | codeCheck
  deriving DecidableEq, Repr

namespace Call

instance : Named Call where
  all := [.exemption, .credentials, .methods, .startMethod, .verification, .confirmation,
    .execution, .cancellation, .codeCheck]
  name
    | .exemption => "check_sca_exemption"
    | .credentials => "authorise_psu"
    | .methods => "request_available_sca_methods"
    | .startMethod => "request_authorisation_code"
    | .verification => "verify_sca_authorisation"
    | .confirmation => "confirm_consent"
    | .execution => "execute_payment"
    | .cancellation => "cancel_payment"
    | .codeCheck => "check_confirmation_code"

def name (c : Call) : String := Named.name c

end Call

inductive Exchange where
  | exemption (context : Context) (parent : Parent) (answer : Answer Bool)
  | credentials (context : Context) (password : Secret) (parent : Parent)
      (answer : Answer Verdict)
  | methods (context : Context) (parent : Parent) (answer : Answer (List Sca.Method))
  | startMethod (context : Context) (methodId : String) (parent : Parent)
      (answer : Answer MethodStart)
  | verification (context : Context) (data : Secret) (parent : Parent) (answer : Answer Verdict)
  | confirmation (context : Context) (consent : Consent) (answer : Answer Verdict)
  | execution (context : Context) (order : Order) (answer : Answer Execution)
  | cancellation (context : Context) (order : Order) (answer : Answer Execution)
  /-- The handle names the bank's own record of the payment. -/
  | codeCheck (context : Context) (code : Secret) (order : Order) (handle : String)
      (answer : Answer CodeCheck)
  deriving Repr

namespace Exchange

def call : Exchange → Call
  | exemption .. => .exemption
  | credentials .. => .credentials
  | methods .. => .methods
  | startMethod .. => .startMethod
  | verification .. => .verification
  | confirmation .. => .confirmation
  | execution .. => .execution
  | cancellation .. => .cancellation
  | codeCheck .. => .codeCheck

def context : Exchange → Context
  | exemption c .. => c
  | credentials c .. => c
  | methods c .. => c
  | startMethod c .. => c
  | verification c .. => c
  | confirmation c .. => c
  | execution c .. => c
  | cancellation c .. => c
  | codeCheck c .. => c

end Exchange

end StrongAuth.Bank
