import StrongAuth.Authorisation
import StrongAuth.Store

set_option autoImplicit false

namespace StrongAuth

namespace Authorisation

/-- A redirected PSU talks to the bank alone, and a decoupled one is waited for until a code arrives. -/
def isOpenToTpp (a : Authorisation) (codeReceived : Bool) : Bool :=
  match a.approach with
  | .redirect => false
  | .decoupled => !(a.status == .methodSelected) || codeReceived
  | .embedded | .oauth => true

end Authorisation

structure AccessCheck where
  confirmationMandated : Bool
  deriving DecidableEq, Repr

namespace AccessCheck

def text (g : AccessCheck) : String :=
  s!"AuthorisationAccessGuard(confirmation_mandated: {g.confirmationMandated})"

variable {σ : Type} [Store σ]

def lookUp (s : σ) (id : String) : Option Authorisation :=
  match Store.authorisation s id with
  | .ok found => found
  | .error _ => none

def allowsAccount (g : AccessCheck) (s : σ) (consentId id : String) (codeReceived : Bool) : Bool :=
  match lookUp s id with
  | none => true
  | some a =>
    if a.parentId == consentId && a.purpose == .account then
      !(g.confirmationMandated && a.status == .received) && a.isOpenToTpp codeReceived
    else true

def allowsPayment (s : σ) (id : String) (codeReceived : Bool) : Bool :=
  match lookUp s id with
  | none => true
  | some a => a.isOpenToTpp codeReceived

end AccessCheck

end StrongAuth
