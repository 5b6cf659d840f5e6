import StrongAuth.Progress
import StrongAuth.Store

set_option autoImplicit false

/-!
# A store of tables

Four tables hold authorisations, consents, payments and PSUs. The PSU, method and challenge of an
authorisation and the order of a payment are columns of JSON text, so a record can be unreadable.
PSUs are filed under the id of their parent alone, which a consent and a payment may share. An
update of an authorisation is one transaction. A closed store answers nothing but an error. Of the
time stamps only the creation of an authorisation is kept, since its siblings are listed by it; the
other `created_at` columns and `updated_at` are left out, and a write that changes nothing but
`updated_at` changes nothing here.
-/
namespace StrongAuth

structure AuthorisationRow where
  id : String
  parentId : String
  purpose : Purpose
  status : Sca.Status
  approach : Sca.Approach
  psu : String
  method : Option String
  challenge : Option String
  secret : Option Secret
  expiresAt : Calendar.Instant
  version : Int
  createdAt : Int
  deriving Repr

structure ConsentRow where
  id : String
  status : Consent.Status
  multilevel : Bool
  recurring : Bool
  frequencyPerDay : Int
  validUntil : Calendar.Date
  deriving Repr

structure PaymentRow where
  id : String
  kind : Order.Kind
  product : String
  status : Payment.Status
  multilevel : Bool
  payload : Option (List UInt8)
  order : Option String
  deriving Repr

structure PsuRow where
  parentId : String
  psu : Psu
  deriving Repr

structure Database where
  url : String
  ids : IdSource := .numbered
  /-- The time, in seconds, at which each authorisation is inserted. -/
  clock : Nat → Int := fun _ => 0

structure TableStore extends Database where
  isClosed : Bool := false
  authorisations : List AuthorisationRow := []
  consents : List ConsentRow := []
  payments : List PaymentRow := []
  psus : List PsuRow := []

namespace TableStore

/-- The record is there and cannot be read; the reader's account of it is withheld. -/
def unreadable : StoreError := .corrupt Payment.reasonWithheld

def closedPool : StoreError :=
  .database "attempted to acquire a connection on a closed pool"

def column {α : Type} (ofJson? : Json → Option α) (text : String) : Except StoreError α :=
  match (Json.ofText? text).bind ofJson? with
  | some a => .ok a
  | none => .error unreadable

def optionalColumn {α : Type} (ofJson? : Json → Option α) :
    Option String → Except StoreError (Option α)
  | none => .ok none
  | some text => (column ofJson? text).map some

end TableStore

namespace AuthorisationRow

def read (r : AuthorisationRow) : Except StoreError Authorisation := do
  let psu ← TableStore.column Psu.ofJson? r.psu
  let method ← TableStore.optionalColumn Sca.Method.ofJson? r.method
  let challenge ← TableStore.optionalColumn Sca.Challenge.ofJson? r.challenge
  return {
    id := r.id, parentId := r.parentId, purpose := r.purpose, status := r.status,
    approach := r.approach, psu, method, challenge, secret := r.secret,
    expiresAt := r.expiresAt, version := r.version }

def ofDraft (id : String) (createdAt : Int) (d : Authorisation.Draft) : AuthorisationRow :=
  { id, parentId := d.parentId, purpose := d.purpose, status := .received, approach := d.approach,
    psu := d.psu.toJson.write, method := none, challenge := none, secret := none,
    expiresAt := d.expiresAt, version := 0, createdAt }

def apply (r : AuthorisationRow) (u : Authorisation.Update) : AuthorisationRow :=
  { r with
    status := u.status
    psu := (u.psu.map fun p => p.toJson.write).getD r.psu
    method := (u.method.map fun m => m.toJson.write) <|> r.method
    challenge := (u.challenge.map fun c => c.toJson.write) <|> r.challenge
    secret := u.secret <|> r.secret
    version := r.version + 1 }

def insertByAge (r : AuthorisationRow) : List AuthorisationRow → List AuthorisationRow
  | [] => [r]
  | q :: rows => if r.createdAt ≤ q.createdAt then r :: q :: rows else q :: r.insertByAge rows

/-- The rows by their time of creation. Rows of one time stay in their order. -/
def oldestFirst (rows : List AuthorisationRow) : List AuthorisationRow :=
  rows.foldr insertByAge []

end AuthorisationRow

namespace ConsentRow

def ofDraft (d : Consent.Draft) : ConsentRow :=
  { id := d.id, status := .received, multilevel := d.multilevel, recurring := d.recurring,
    frequencyPerDay := d.frequencyPerDay, validUntil := d.validUntil }

def withPsus (r : ConsentRow) (psus : List Psu) : Consent :=
  { id := r.id, status := r.status, psus, multilevel := r.multilevel, recurring := r.recurring,
    frequencyPerDay := r.frequencyPerDay, validUntil := r.validUntil }

end ConsentRow

namespace PaymentRow

def ofPayment (p : Payment) : PaymentRow :=
  { id := p.id, kind := p.kind, product := p.product, status := p.status,
    multilevel := p.multilevel, payload := p.payload,
    order := p.order.map fun o => o.toJson.write }

def withPsus (r : PaymentRow) (psus : List Psu) : Except StoreError Payment := do
  let order ← TableStore.optionalColumn Order.ofJson? r.order
  return {
    id := r.id, kind := r.kind, product := r.product, status := r.status, psus,
    multilevel := r.multilevel, payload := r.payload, order }

end PaymentRow

namespace TableStore

def psusOf (s : TableStore) (parentId : String) : List Psu :=
  (s.psus.filter fun r => r.parentId == parentId).map (·.psu)

def filePsus (s : TableStore) (parentId : String) (psus : List Psu) : TableStore :=
  { s with psus := s.psus ++ psus.map fun psu => { parentId, psu } }

def readAuthorisation (s : TableStore) (id : String) :
    Except StoreError (Option Authorisation) :=
  match s.authorisations.find? fun r => r.id == id with
  | none => .ok none
  | some r => r.read.map some

def readSiblings (s : TableStore) (parentId : String) (purpose : Purpose) :
    Except StoreError (List Authorisation) :=
  let rows := s.authorisations.filter fun r => r.parentId == parentId && r.purpose == purpose
  (AuthorisationRow.oldestFirst rows).mapM AuthorisationRow.read

def readConsent (s : TableStore) (id : String) : Option Consent :=
  (s.consents.find? fun r => r.id == id).map fun r => r.withPsus (s.psusOf id)

def readPayment (s : TableStore) (id : String) : Except StoreError (Option Payment) :=
  match s.payments.find? fun r => r.id == id with
  | none => .ok none
  | some r => (r.withPsus (s.psusOf id)).map some

def writeConsent (s : TableStore) (id : String) (f : ConsentRow → ConsentRow) :
    Except StoreError Consent × TableStore :=
  match s.consents.find? fun r => r.id == id with
  | none => (.error (.unknownConsent id), s)
  | some r =>
    (.ok ((f r).withPsus (s.psusOf id)),
      { s with consents := s.consents.map fun r => if r.id == id then f r else r })

/-- Rewrites the row of a payment and reads it back. The row is written even if it cannot be read. -/
def writePayment (s : TableStore) (id : String) (f : PaymentRow → PaymentRow) :
    Except StoreError Payment × TableStore :=
  match s.payments.find? fun r => r.id == id with
  | none => (.error (.unknownPayment id), s)
  | some r =>
    ((f r).withPsus (s.psusOf id),
      { s with payments := s.payments.map fun r => if r.id == id then f r else r })

def putConsentStatus (s : TableStore) (id : String) (status : Consent.Status) :
    Except StoreError Consent × TableStore :=
  s.writeConsent id fun r => { r with status }

def putPaymentStatus (s : TableStore) (id : String) (status : Payment.Status) :
    Except StoreError Payment × TableStore :=
  s.writePayment id fun r => { r with status }

/-- Inside a transaction a write counts only if the row can be read back. -/
def putParentStatus (s : TableStore) (id : String) :
    Parent.Status → Except StoreError TableStore
  | .consent status =>
    match s.putConsentStatus id status with
    | (.ok _, s) => .ok s
    | (.error e, _) => .error e
  | .payment status =>
    match s.putPaymentStatus id status with
    | (.ok _, s) => .ok s
    | (.error e, _) => .error e

def statusByProgress (s : TableStore) (a : Authorisation) :
    Except StoreError (Option Parent.Status) :=
  match a.purpose with
  | .account =>
    match s.readConsent a.parentId with
    | none => .ok none
    | some c => do
      let siblings ← s.readSiblings a.parentId a.purpose
      return (c.statusAfter ((Parent.consent c).progress siblings)).map .consent
  | .initiation => do
    match ← s.readPayment a.parentId with
    | none => return none
    | some p =>
      let siblings ← s.readSiblings a.parentId a.purpose
      return (p.statusAfter ((Parent.payment p).progress siblings)).map .payment
  | .cancellation => .ok none

def putOptionalStatus (s : TableStore) (id : String) :
    Option Parent.Status → Except StoreError TableStore
  | none => .ok s
  | some status => s.putParentStatus id status

def settleParent (s : TableStore) (a : Authorisation) : Except StoreError TableStore :=
  if a.status.isGranted then do
    let status ← s.statusByProgress a
    s.putOptionalStatus a.parentId status
  else .ok s

def modifyRow (s : TableStore) (id : String) (f : AuthorisationRow → AuthorisationRow) :
    TableStore :=
  { s with authorisations := s.authorisations.map fun r => if r.id == id then f r else r }

/-- The tables after a successful update. The status that the bank reports is written last, so it
has the final word. -/
def transact (s : TableStore) (id : String) (version : Int) (u : Authorisation.Update) :
    Except StoreError (Authorisation × TableStore) :=
  match s.authorisations.find? fun r => r.id == id with
  | none => .error (.unknownAuthorisation id)
  | some r => do
    let current ← r.read
    match Store.writeConflict current version with
    | some e => .error e
    | none =>
      let updated ← (r.apply u).read
      let s ← (s.modifyRow id fun r => r.apply u).settleParent updated
      let s ← s.putOptionalStatus updated.parentId u.parentStatus
      return (updated, s)

def reading {α : Type} (s : TableStore) (answer : Except StoreError α) : Except StoreError α :=
  if s.isClosed then .error closedPool else answer

def writing {α : Type} (s : TableStore) (answer : Except StoreError α × TableStore) :
    Except StoreError α × TableStore :=
  if s.isClosed then (.error closedPool, s) else answer

def nextId (s : TableStore) : String := s.ids.draw (s.authorisations.map (·.id))

def insertAuthorisation (s : TableStore) (d : Authorisation.Draft) :
    Except StoreError Authorisation × TableStore :=
  let r := AuthorisationRow.ofDraft s.nextId (s.clock s.authorisations.length) d
  s.writing (r.read, { s with authorisations := s.authorisations ++ [r] })

def updateAuthorisation (s : TableStore) (id : String) (version : Int)
    (u : Authorisation.Update) : Except StoreError Authorisation × TableStore :=
  s.writing <| match s.transact id version u with
    | .ok (updated, s) => (.ok updated, s)
    | .error e => (.error e, s)

/-- The answer repeats the PSUs that were given, whatever else is filed under the id. -/
def insertConsent (s : TableStore) (d : Consent.Draft) :
    Except StoreError Consent × TableStore :=
  s.writing <| match s.readConsent d.id with
    | some _ => (.error (.alreadyExists s!"Consent {d.id}"), s)
    | none =>
      let r := ConsentRow.ofDraft d
      (.ok (r.withPsus d.psus), { s with consents := s.consents ++ [r] }.filePsus d.id d.psus)

def insertPayment (s : TableStore) (p : Payment) : Except StoreError Payment × TableStore :=
  s.writing <| match s.readPayment p.id with
    | .error e => (.error e, s)
    | .ok (some _) => (.error (.alreadyExists s!"Payment {p.id}"), s)
    | .ok none =>
      let r := PaymentRow.ofPayment p
      match r.withPsus p.psus with
      | .error e => (.error e, s)
      | .ok stored => (.ok stored, { s with payments := s.payments ++ [r] }.filePsus p.id p.psus)

def saveOrder (s : TableStore) (id : String) (order : Order) :
    Except StoreError Payment × TableStore :=
  s.writing (s.writePayment id fun r => { r with order := some order.toJson.write })

instance : Store TableStore where
  authorisation s id := s.reading (s.readAuthorisation id)
  authorisationsOf s parentId purpose := s.reading (s.readSiblings parentId purpose)
  insertAuthorisation := insertAuthorisation
  updateAuthorisation := updateAuthorisation
  consent s id := s.reading (.ok (s.readConsent id))
  insertConsent := insertConsent
  setConsentStatus s id status := s.writing (s.putConsentStatus id status)
  payment s id := s.reading (s.readPayment id)
  insertPayment := insertPayment
  saveOrder := saveOrder
  setPaymentStatus s id status := s.writing (s.putPaymentStatus id status)

def close (s : TableStore) : TableStore := { s with isClosed := true }

def reopen (s : TableStore) : TableStore := { s with isClosed := false }

inductive Column where
  | psu
  | method
  | challenge
  | order
  deriving DecidableEq, Repr

/-- Overwrites a column of the record with this id and tells how many rows that changed. -/
def overwrite (s : TableStore) (c : Column) (id text : String) :
    Except StoreError Nat × TableStore :=
  let changed := match c with
    | .order => (s.payments.filter fun r => r.id == id).length
    | _ => (s.authorisations.filter fun r => r.id == id).length
  let written := match c with
    | .psu => s.modifyRow id fun r => { r with psu := text }
    | .method => s.modifyRow id fun r => { r with method := some text }
    | .challenge => s.modifyRow id fun r => { r with challenge := some text }
    | .order =>
      { s with payments := s.payments.map fun r =>
          if r.id == id then { r with order := some text } else r }
  s.writing (.ok changed, written)

end TableStore

end StrongAuth
