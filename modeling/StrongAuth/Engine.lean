import StrongAuth.Engine.Access
import StrongAuth.Engine.ApproachChoice
import StrongAuth.Engine.Confirmation
import StrongAuth.Engine.Step

set_option autoImplicit false

/-!
# The engine

The engine starts authorisations and moves them, one step for each update. It is a function of its
configuration, the time, the site and the request. An update is written unless it was refused before
its step ran or the authorisation was terminal already; an outcome that could not be written becomes
a refusal.
-/
namespace StrongAuth.Engine
open StrongAuth.Calendar

def resolve (address : Address) : Except EngineError Purpose :=
  match address.purpose? with
  | some purpose => .ok purpose
  | none => .error (.configuration s!"No processor service is registered for {address.text}")

def parseStep : Option String → Except EngineError (Option PaymentStep)
  | none => .ok none
  | some text =>
    match Keyword.read text with
    | .ok step => .ok (some step)
    | .error e => .error (.configuration s!"Unknown payment authorisation type. {e.message}")

def parseAddress (service : String) (step : Option String) : Except EngineError Address :=
  match Keyword.read service with
  | .error e => .error (.configuration s!"Unknown service type. {e.message}")
  | .ok service => (parseStep step).map fun step => ⟨service, step⟩

def resolveByName (service : String) (step : Option String) : Except EngineError Purpose :=
  (parseAddress service step).bind resolve

def access (c : Config) : AccessCheck := ⟨c.confirmationMandated⟩

def approaches (c : Config) : ApproachChoice := ⟨c.defaultApproach⟩

variable {σ : Type} [Store σ]

def authorisation (s : σ) (id : String) : Except EngineError Authorisation :=
  match Store.authorisation s id with
  | .error e => .error (.store e)
  | .ok none => .error (.unknownAuthorisation id)
  | .ok (some a) => .ok a

def status (s : σ) (id : String) : Except EngineError Sca.Status :=
  (authorisation s id).map (·.status)

/-- A parent that needs only one PSU already has an authorisation that was granted. -/
def isAuthorised (s : σ) (purpose : Purpose) (parent : Parent) (id : String) :
    Except StoreError Bool :=
  if parent.multilevel then .ok false
  else (Store.authorisationsOf s id purpose).map fun existing =>
    parent.progress existing = .complete

def create (c : Config) (now : Instant) (s : σ) (purpose : Purpose) (approach : Sca.Approach)
    (r : StartRequest) : Except Halt (Except EngineError Authorisation × σ) :=
  match now.after? c.lifetime with
  | none => .error .expiry
  | some expiresAt =>
    match Store.insertAuthorisation s
        { parentId := r.parentId, purpose, approach, psu := r.psu, expiresAt } with
    | (.ok a, s) => .ok (.ok a, s)
    | (.error e, s) => .ok (.error (.store e), s)

/-- Starts an authorisation of a parent whose lifecycle is not over, and, if it needs only one PSU,
that has not been authorised yet. -/
def start (c : Config) (now : Instant) (s : σ) (r : StartRequest) :
    Except Halt (Except EngineError Authorisation × σ) :=
  match resolve r.address with
  | .error e => .ok (.error e, s)
  | .ok purpose =>
    match (approaches c).forPurpose purpose r.approach with
    | .error e => .ok (.error e, s)
    | .ok approach =>
      match purpose.findActiveParent s r.parentId with
      | (.error e, s) => .ok (.error (.store e), s)
      | (.ok none, s) => .ok (.error (.noActiveParent r.parentId), s)
      | (.ok (some parent), s) =>
        match isAuthorised s purpose parent r.parentId with
        | .error e => .ok (.error (.store e), s)
        | .ok true => .ok (.error (.alreadyAuthorised r.parentId), s)
        | .ok false => create c now s purpose approach r

def findFor (s : σ) (purpose : Purpose) (u : UpdateRequest) : Except EngineError Authorisation :=
  match Store.authorisation s u.authorisationId with
  | .error e => .error (.store e)
  | .ok none => .error (.unknownAuthorisation u.authorisationId)
  | .ok (some a) =>
    if a.parentId == u.parentId && a.purpose == purpose then .ok a
    else .error (.unknownAuthorisation u.authorisationId)

/-- Writes an outcome. If that fails, nothing has changed and the outcome says so. -/
def record (site : Site σ) (purpose : Purpose) (a : Attempt) (o : Outcome) : Outcome × Site σ :=
  if a.status.isTerminal then (o, site)
  else match purpose.persist site.store a o with
    | (.ok (), store) => (o, { site with store })
    | (.error e, store) => (a.rejectStore e, { site with store })

def advance (c : Config) (site : Site σ) (purpose : Purpose) (a : Attempt) : Outcome × Site σ :=
  if a.hasCode then
    let (o, site) := a.confirm c purpose (.ofFlag c.checksCodesLocally) site
    record site purpose a o
  else match a.incomplete with
    | some m => (a.reject m, site)
    | none =>
      let (o, site) := a.step c purpose site
      record site purpose a o

def update (c : Config) (now : Instant) (site : Site σ) (u : UpdateRequest) :
    Except EngineError Outcome × Site σ :=
  match resolve u.address with
  | .error e => (.error e, site)
  | .ok purpose =>
    match findFor site.store purpose u with
    | .error e => (.error e, site)
    | .ok stored =>
      let a := Attempt.of u stored
      if a.isExpired now then (.error (.expired a.authorisationId a.expiresAt), site)
      else match a.foreignPsu stored with
        | some m => (.ok (a.reject m), site)
        | none =>
          let (o, site) := advance c site purpose a
          (.ok o, site)

end StrongAuth.Engine
