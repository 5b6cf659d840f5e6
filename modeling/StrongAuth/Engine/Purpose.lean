import StrongAuth.Config
import StrongAuth.Engine.Error
import StrongAuth.Engine.Outcome
import StrongAuth.Engine.Site
import StrongAuth.Progress

set_option autoImplicit false

namespace StrongAuth.Purpose

variable {σ : Type} [Store σ]

def serviceName : Purpose → String
  | .account => "AccountProcessorService"
  | .initiation => "PaymentInitiationProcessorService"
  | .cancellation => "PaymentCancellationProcessorService"

/-- Payments under an embedded or decoupled approach end with a code where the deployment mandates it. -/
def needsCode (p : Purpose) (c : Config) (approach : Sca.Approach) : Bool :=
  p.isPayment && c.confirmationMandated && (approach == .embedded || approach == .decoupled)

/-- Finds a payment and its order. An order that has to be read from the payload is saved, so this
happens once. -/
def findOrderedPayment (s : σ) (id : String) : Except StoreError (Option Payment) × σ :=
  match Store.payment s id with
  | .error e => (.error e, s)
  | .ok none => (.ok none, s)
  | .ok (some payment) =>
    if payment.isMaterialised then (.ok (some payment), s)
    else match payment.orderOf with
      | .error e => (.error (.corrupt e.message), s)
      | .ok order =>
        match Store.saveOrder s id order with
        | (.ok saved, s) => (.ok (some saved), s)
        | (.error e, s) => (.error e, s)

/-- Finds the parent, whatever its status. A cancellation needs the order of the payment. -/
def findParent (p : Purpose) (s : σ) (id : String) : Except StoreError (Option Parent) × σ :=
  match p with
  | .account => ((Store.consent s id).map fun c => c.map .consent, s)
  | .initiation => ((Store.payment s id).map fun q => q.map .payment, s)
  | .cancellation =>
    let (answer, s) := findOrderedPayment s id
    (answer.map fun q => q.map .payment, s)

def findActiveParent (p : Purpose) (s : σ) (id : String) :
    Except StoreError (Option Parent) × σ :=
  let (answer, s) := p.findParent s id
  (answer.map fun found => found.filter fun parent => !parent.isTerminal, s)

structure Effect where
  verdict : Bank.Verdict
  parentStatus : Option Parent.Status
  deriving DecidableEq, Repr

/-- Every PSU of a payment will have authorised it once the authorisation of the context is finalised. -/
def completes (s : σ) (c : Bank.Context) (parent : Parent) : Except StoreError Bool :=
  if !parent.multilevel then .ok true
  else do
    let authorisations ← Store.authorisationsOf s parent.id .initiation
    let finalised := authorisations.map fun a =>
      if a.id == c.authorisationId then { a with status := .finalised, psu := c.psu } else a
    return parent.progress finalised = .complete

def confirmConsent (bank : Bank) (c : Bank.Context) (consent : Consent) :
    Except EffectError Effect × Bank :=
  match bank.askConfirmation c consent with
  | (.error fault, bank) => (.error (.bank fault), bank)
  | (.ok .failure, bank) => (.ok ⟨.failure, some (.consent .rejected)⟩, bank)
  | (.ok verdict, bank) => (.ok ⟨verdict, none⟩, bank)

def effectOf (x : Bank.Execution) : Effect := ⟨x.verdict, some (.payment x.status)⟩

/-- Has the bank execute a payment, unless other PSUs have yet to authorise it. -/
def executePayment (site : Site σ) (c : Bank.Context) (payment : Payment) :
    Except EffectError Effect × Bank :=
  match completes site.store c (.payment payment) with
  | .error e => (.error (.store e), site.bank)
  | .ok false => (.ok ⟨.success, none⟩, site.bank)
  | .ok true =>
    match payment.orderOf with
    | .error e => (.error (.payload e), site.bank)
    | .ok order =>
      match site.bank.askExecution c order with
      | (.ok x, bank) => (.ok (effectOf x), bank)
      | (.error fault, bank) => (.error (.bank fault), bank)

def cancelPayment (bank : Bank) (c : Bank.Context) (payment : Payment) :
    Except EffectError Effect × Bank :=
  match payment.orderOf with
  | .error e => (.error (.payload e), bank)
  | .ok order =>
    match bank.askCancellation c order with
    | (.ok x, bank) => (.ok (effectOf x), bank)
    | (.error fault, bank) => (.error (.bank fault), bank)

/-- Applies a completed authorisation to its parent. Only the bank is changed here. -/
def finalise (p : Purpose) (site : Site σ) (c : Bank.Context) (parent : Parent) :
    Except EffectError Effect × Bank :=
  match p, parent with
  | .account, .consent consent => confirmConsent site.bank c consent
  | .initiation, .payment payment => executePayment site c payment
  | .cancellation, .payment payment => cancelPayment site.bank c payment
  | _, _ => (.error (.wrongParent p parent.id), site.bank)

def checkCode (p : Purpose) (bank : Bank) (c : Bank.Context) (code : Secret) (parent : Parent) :
    Except EffectError Bank.CodeCheck × Bank :=
  if p.isPayment then
    match parent with
    | .consent consent => (.error (.wrongParent p consent.id), bank)
    | .payment payment =>
      match payment.orderOf with
      | .error e => (.error (.payload e), bank)
      | .ok order =>
        match bank.askCodeCheck c code order payment.id with
        | (.ok check, bank) => (.ok check, bank)
        | (.error fault, bank) => (.error (.bank fault), bank)
  else (.error (.bank (.unsupported "Confirmation codes for account consents")), bank)

/-- The parent status that may be written. One of the wrong sort is dropped. -/
def ownStatus (p : Purpose) : Option Parent.Status → Option Parent.Status
  | some (.consent status) => if p.isPayment then none else some (.consent status)
  | some (.payment status) => if p.isPayment then some (.payment status) else none
  | none => none

/-- What is written of an outcome. Fields that the outcome leaves empty keep their stored values. -/
def updateOf (p : Purpose) (a : Attempt) (o : Outcome) : Authorisation.Update :=
  { status := o.status
    psu := if a.psu.isEmpty then none else some a.psu
    method := o.method
    challenge := o.challenge
    secret := o.secret
    parentStatus := p.ownStatus o.parentStatus }

def persist (p : Purpose) (s : σ) (a : Attempt) (o : Outcome) : Except StoreError Unit × σ :=
  match Store.updateAuthorisation s a.authorisationId a.version (p.updateOf a o) with
  | (.ok _, s) => (.ok (), s)
  | (.error e, s) => (.error e, s)

end StrongAuth.Purpose
