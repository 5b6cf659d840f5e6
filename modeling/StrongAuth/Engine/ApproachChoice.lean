import StrongAuth.Authorisation
import StrongAuth.Engine.Error
import StrongAuth.Store

set_option autoImplicit false

namespace StrongAuth

structure ApproachChoice where
  default : Sca.Approach
  deriving DecidableEq, Repr

namespace ApproachChoice

def text (r : ApproachChoice) : String :=
  s!"ScaApproachResolver(default: {r.default.name})"

/-- Any approach that exists. A blank request asks for nothing. -/
def forAccount (r : ApproachChoice) (requested : Option String) :
    Except EngineError Sca.Approach :=
  match requested.filter fun text => !Text.isBlank text with
  | none => .ok r.default
  | some text =>
    match Keyword.read text with
    | .ok approach => .ok approach
    | .error e => .error (.unsupported e.message)

/-- An approach that suits payments; the default has to suit them as well. -/
def forPayment (r : ApproachChoice) (requested : Option String) :
    Except EngineError Sca.Approach :=
  match r.forAccount requested with
  | .error e => .error e
  | .ok approach =>
    if approach.suitsPayments then .ok approach
    else .error (.unsupported s!"{approach.name} is not supported for payments")

def forPurpose (r : ApproachChoice) (p : Purpose) (requested : Option String) :
    Except EngineError Sca.Approach :=
  if p.isPayment then r.forPayment requested else r.forAccount requested

def pinned {σ : Type} [Store σ] (s : σ) (id : String) (purpose : Purpose) :
    Except EngineError Sca.Approach :=
  match Store.authorisation s id with
  | .error e => .error (.store e)
  | .ok none => .error (.unknownAuthorisation id)
  | .ok (some a) => if a.purpose == purpose then .ok a.approach else .error (.unknownAuthorisation id)

end ApproachChoice

end StrongAuth
