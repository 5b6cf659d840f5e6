import StrongAuth.Text.Keyword

set_option autoImplicit false

namespace StrongAuth

inductive Service where
  | account
  | payment
  | fundsConfirmation
  | signingBasket
  deriving DecidableEq, Repr

namespace Service

instance : Keyword Service where
  title := "ServiceType"
  all := [.account, .payment, .fundsConfirmation, .signingBasket]
  name
    | .account => "ACCOUNT"
    | .payment => "PAYMENT"
    | .fundsConfirmation => "FUNDS_CONFIRMATION"
    | .signingBasket => "SIGNING_BASKET"

def name (s : Service) : String := Named.name s

end Service

inductive PaymentStep where
  | initiation
  | cancellation
  deriving DecidableEq, Repr

namespace PaymentStep

instance : Keyword PaymentStep where
  title := "PaymentAuthorisationType"
  all := [.initiation, .cancellation]
  name
    | .initiation => "INITIATION"
    | .cancellation => "CANCELLATION"

def name (s : PaymentStep) : String := Named.name s

end PaymentStep

/-- The interface of the third party: account information or payment initiation. -/
inductive Area where
  | ais
  | pis
  deriving DecidableEq, Repr

namespace Area

instance : Named Area where
  all := [.ais, .pis]
  name
    | .ais => "AIS"
    | .pis => "PIS"

def label : Area → String
  | .ais => "Ais"
  | .pis => "Pis"

end Area

inductive Purpose where
  | account
  | initiation
  | cancellation
  deriving DecidableEq, Repr

namespace Purpose

instance : Keyword Purpose where
  title := "AuthorisationKind"
  all := [.account, .initiation, .cancellation]
  name
    | .account => "ACCOUNT"
    | .initiation => "PAYMENT_INITIATION"
    | .cancellation => "PAYMENT_CANCELLATION"

def name (p : Purpose) : String := Named.name p

def isPayment : Purpose → Bool
  | .account => false
  | _ => true

def area : Purpose → Area
  | .account => .ais
  | _ => .pis

end Purpose

structure Address where
  service : Service
  step : Option PaymentStep := none
  deriving DecidableEq, Repr

namespace Address

def text (a : Address) : String :=
  match a.step with
  | some step => s!"{a.service.name}/{step.name}"
  | none => a.service.name

def purpose? : Address → Option Purpose
  | ⟨.account, none⟩ => some .account
  | ⟨.payment, some .initiation⟩ => some .initiation
  | ⟨.payment, some .cancellation⟩ => some .cancellation
  | _ => none

def ofPurpose : Purpose → Address
  | .account => ⟨.account, none⟩
  | .initiation => ⟨.payment, some .initiation⟩
  | .cancellation => ⟨.payment, some .cancellation⟩

theorem purpose?_ofPurpose (p : Purpose) : (ofPurpose p).purpose? = some p := by
  cases p <;> rfl

end Address

end StrongAuth
