import StrongAuth.Engine.Check
import StrongAuth.Engine.Purpose

set_option autoImplicit false

namespace StrongAuth.Attempt

variable {σ : Type} [Store σ]

def withParent (a : Attempt) (p : Purpose) (site : Site σ)
    (next : Parent → Site σ → Outcome × Site σ) : Outcome × Site σ :=
  match p.findParent site.store a.parentId with
  | (.ok (some parent), store) => next parent { site with store }
  | (.ok none, store) =>
    (a.rejectBusiness .resourceUnknown s!"{a.parentId} does not exist", { site with store })
  | (.error e, store) => (a.rejectStore e, { site with store })

/-- A PSU who is not listed may join a multilevel parent, and a parent that lists nobody. -/
def mayAuthorise (a : Attempt) (parent : Parent) : Bool :=
  parent.psus.isEmpty || parent.lists a.psu || parent.multilevel

/-- `received`: identifies the PSU against the parent, and asks whether the bank waives the rest. -/
def identify (a : Attempt) (p : Purpose) (site : Site σ) : Outcome × Site σ :=
  if a.psu.isEmpty then
    (a.rejectInvalid .formatError "A PSU id is required to identify the PSU", site)
  else a.withParent p site fun parent site =>
    if a.mayAuthorise parent then
      match site.bank.askExemption a.context parent with
      | (.ok true, bank) => (a.advance .exempted, { site with bank })
      | (.ok false, bank) => (a.advance .psuIdentified, { site with bank })
      | (.error fault, bank) => (a.rejectFault fault, { site with bank })
    else
      (a.failBusiness .psuCredentialsInvalid
        s!"PSU {a.psu.text} is not authorised for {parent.id}", site)

def offerMethods (a : Attempt) (parent : Parent) (site : Site σ) : Outcome × Site σ :=
  match site.bank.askMethods a.context parent with
  | (.ok [], bank) =>
    (a.failBusiness .scaMethodUnknown "The ASPSP offers no SCA methods for this PSU",
      { site with bank })
  | (.ok methods, bank) => ({ a.advance .psuAuthenticated with methods }, { site with bank })
  | (.error fault, bank) => (a.rejectFault fault, { site with bank })

/-- `psuIdentified`: has the bank check the password, and offers methods. -/
def authenticate (a : Attempt) (p : Purpose) (site : Site σ) : Outcome × Site σ :=
  match a.password with
  | none => (a.rejectMissing "PSU password", site)
  | some password => a.withParent p site fun parent site =>
    match site.bank.askCredentials a.context password parent with
    | (.ok .success, bank) => a.offerMethods parent { site with bank }
    | (.ok .attemptFailure, bank) =>
      (a.rejectBusiness .psuCredentialsInvalid "Wrong PSU credentials", { site with bank })
    | (.ok .failure, bank) =>
      (a.failBusiness .psuCredentialsInvalid "PSU authentication failed", { site with bank })
    | (.error fault, bank) => (a.rejectFault fault, { site with bank })

/-- Has the bank start a method that was offered. A code that comes with it is kept for later. -/
def startMethod (a : Attempt) (methodId : String) (methods : List Sca.Method) (parent : Parent)
    (site : Site σ) : Outcome × Site σ :=
  match site.bank.askStartMethod a.context methodId parent with
  | (.ok started, bank) =>
    ({ a.advance .methodSelected with
        methods
        method := some started.method
        challenge := started.challenge
        secret := started.confirmationCode
        psuMessage := started.psuMessage }, { site with bank })
  | (.error fault, bank) => (a.rejectFault fault, { site with bank })

/-- `psuAuthenticated`: starts the method that the PSU chose from the offered ones. -/
def chooseMethod (a : Attempt) (p : Purpose) (site : Site σ) : Outcome × Site σ :=
  match a.methodId with
  | none => (a.rejectMissing "authentication method id", site)
  | some methodId => a.withParent p site fun parent site =>
    match site.bank.askMethods a.context parent with
    | (.error fault, bank) => (a.rejectFault fault, { site with bank })
    | (.ok methods, bank) =>
      if methods.any fun m => m.id == methodId then
        a.startMethod methodId methods parent { site with bank }
      else
        let refusal := a.rejectBusiness .scaMethodUnknown
          s!"{methodId} is not one of the offered SCA methods"
        ({ refusal with methods }, { site with bank })

/-- `methodSelected`: has the bank verify the answer of the PSU, and keeps it for a later code. -/
def verify (a : Attempt) (p : Purpose) (site : Site σ) : Outcome × Site σ :=
  match a.data with
  | none => (a.rejectMissing "SCA authentication data", site)
  | some data => a.withParent p site fun parent site =>
    match site.bank.askVerification a.context data parent with
    | (.ok .success, bank) => ({ a.advance .started with secret := some data }, { site with bank })
    | (.ok .attemptFailure, bank) =>
      (a.rejectBusiness .scaInvalid "Wrong SCA authentication data", { site with bank })
    | (.ok .failure, bank) =>
      (a.failBusiness .scaInvalid "SCA was refused by the ASPSP", { site with bank })
    | (.error fault, bank) => (a.rejectFault fault, { site with bank })

def effectCode (a : Attempt) : TppMessage.Code :=
  if a.purpose.isPayment then .paymentFailed else .consentInvalid

def ofEffect (a : Attempt) (e : Purpose.Effect) : Outcome :=
  let outcome := match e.verdict with
    | .success => a.advance .finalised
    | .attemptFailure =>
      a.rejectBusiness a.effectCode "The ASPSP could not complete the request yet"
    | .failure => a.failBusiness a.effectCode "The ASPSP refused the request"
  { outcome with parentStatus := e.parentStatus }

def codeReminder : String :=
  "Please confirm the authorisation with the confirmation code you received"

/-- `started`: applies the authorisation to its parent, unless a confirmation code has to come first. -/
def conclude (a : Attempt) (c : Config) (p : Purpose) (site : Site σ) : Outcome × Site σ :=
  if p.needsCode c a.approach then
    ({ a.wait with psuMessage := some codeReminder }, site)
  else a.withParent p site fun parent site =>
    match p.finalise site a.context parent with
    | (.ok effect, bank) => (a.ofEffect effect, { site with bank })
    | (.error e, bank) => (a.reject (e.toTppMessage a.area), { site with bank })

/-- Terminal statuses: there is nothing left to do. -/
def refuse (a : Attempt) : Outcome :=
  a.rejectBusiness .statusInvalid
    s!"Authorisation {a.authorisationId} is {a.status.name} and cannot be updated"

def currentStep (a : Attempt) (c : Config) (p : Purpose) (site : Site σ) : Outcome × Site σ :=
  match a.status with
  | .received => a.identify p site
  | .psuIdentified => a.authenticate p site
  | .psuAuthenticated => a.chooseMethod p site
  | .methodSelected => a.verify p site
  | .started => a.conclude c p site
  | .finalised | .failed | .exempted => (a.refuse, site)

def guarded (a : Attempt) (o : Outcome) : Outcome :=
  if a.status.permits o.status then o
  else a.reject ⟨a.area, .backend, .internalServerError,
    some s!"Transition from {a.status.name} to {o.status.name} is not allowed"⟩

def step (a : Attempt) (c : Config) (p : Purpose) (site : Site σ) : Outcome × Site σ :=
  let (outcome, site) := a.currentStep c p site
  (a.guarded outcome, site)

end StrongAuth.Attempt
