import StrongAuth.Json.Records
import StrongAuth.Store

set_option autoImplicit false

namespace StrongAuth.Store

inductive Operation where
  | authorisation (id : String)
  | authorisationsOf (parentId : String) (purpose : Purpose)
  | insertAuthorisation (draft : Authorisation.Draft)
  | updateAuthorisation (id : String) (version : Int) (update : Authorisation.Update)
  | consent (id : String)
  | insertConsent (draft : Consent.Draft)
  | setConsentStatus (id : String) (status : Consent.Status)
  | payment (id : String)
  | insertPayment (payment : Payment)
  | saveOrder (id : String) (order : Order)
  | setPaymentStatus (id : String) (status : Payment.Status)
  deriving DecidableEq, Repr

/-- What is found or written. A lookup may find nothing. -/
inductive Reply where
  | authorisation (found : Option Authorisation)
  | authorisations (found : List Authorisation)
  | consent (found : Option Consent)
  | payment (found : Option Payment)
  deriving DecidableEq, Repr

abbrev Answer := Except StoreError Reply

def replying {α σ : Type} (reply : α → Reply) (written : Except StoreError α × σ) : Answer × σ :=
  (written.1.map reply, written.2)

namespace Operation

def perform {σ : Type} [Store σ] (s : σ) : Operation → Answer × σ
  | authorisation id => ((Store.authorisation s id).map .authorisation, s)
  | authorisationsOf parentId purpose =>
    ((Store.authorisationsOf s parentId purpose).map .authorisations, s)
  | insertAuthorisation d =>
    replying (fun a => .authorisation (some a)) (Store.insertAuthorisation s d)
  | updateAuthorisation id version u =>
    replying (fun a => .authorisation (some a)) (Store.updateAuthorisation s id version u)
  | consent id => ((Store.consent s id).map .consent, s)
  | insertConsent d => replying (fun c => .consent (some c)) (Store.insertConsent s d)
  | setConsentStatus id status =>
    replying (fun c => .consent (some c)) (Store.setConsentStatus s id status)
  | payment id => ((Store.payment s id).map .payment, s)
  | insertPayment p => replying (fun q => .payment (some q)) (Store.insertPayment s p)
  | saveOrder id order => replying (fun q => .payment (some q)) (Store.saveOrder s id order)
  | setPaymentStatus id status =>
    replying (fun q => .payment (some q)) (Store.setPaymentStatus s id status)

def newConsentId? : Operation → Option String
  | insertConsent d => some d.id
  | _ => none

def newPaymentId? : Operation → Option String
  | insertPayment p => some p.id
  | _ => none

def newId? (payment : Bool) (op : Operation) : Option String :=
  if payment then op.newPaymentId? else op.newConsentId?

def newPsus : Operation → List Psu
  | insertConsent d => d.psus
  | insertPayment p => p.psus
  | _ => []

/-- The quoted version and the changes of an update of this authorisation. -/
def updateOf? (id : String) : Operation → Option (Int × Authorisation.Update)
  | updateAuthorisation i version u => if i = id then some (version, u) else none
  | _ => none

/-- A challenge that is written has a length limit of 32 bits, if it has one. -/
def fits : Operation → Bool
  | updateAuthorisation _ _ u => u.challenge.all Sca.Challenge.fits
  | _ => true

end Operation

def answers {σ : Type} [Store σ] (s : σ) : List Operation → List Answer
  | [] => []
  | op :: ops =>
    let (answer, s) := op.perform s
    answer :: answers s ops

def performed {σ : Type} [Store σ] (s : σ) : List Operation → σ
  | [] => s
  | op :: ops => performed (op.perform s).2 ops

/-- The operations among them that are not answered by an error. -/
def accepted {σ : Type} [Store σ] (s : σ) : List Operation → List Operation
  | [] => []
  | op :: ops =>
    let (answer, s) := op.perform s
    if answer.isOk then op :: accepted s ops else accepted s ops

theorem accepted_cons {σ : Type} [Store σ] (s : σ) (op : Operation) (ops : List Operation) :
    accepted s (op :: ops) = if (op.perform s).1.isOk then op :: accepted (op.perform s).2 ops
      else accepted (op.perform s).2 ops := rfl

theorem performed_append {σ : Type} [Store σ] (s : σ) (before after : List Operation) :
    performed s (before ++ after) = performed (performed s before) after := by
  induction before generalizing s with
  | nil => rfl
  | cons op before ih => exact ih (op.perform s).2

end StrongAuth.Store
