import StrongAuth.Progress
import StrongAuth.Store

set_option autoImplicit false

namespace StrongAuth

structure Writes where
  authorisationInserts : Nat := 0
  authorisationUpdates : Nat := 0
  consentStatusUpdates : Nat := 0
  paymentStatusUpdates : Nat := 0
  ordersSaved : Nat := 0
  deriving DecidableEq, Repr

namespace Writes

def counts (w : Writes) : List Nat :=
  [w.authorisationInserts, w.authorisationUpdates, w.consentStatusUpdates, w.paymentStatusUpdates,
    w.ordersSaved]

end Writes

structure MemoryStore where
  authorisations : List Authorisation := []
  consents : List Consent := []
  payments : List Payment := []
  ids : IdSource := .numbered
  writes : Writes := {}
  failReads : Option StoreError := none
  failUpdate : Option StoreError := none
  failParentStatus : Option StoreError := none

namespace MemoryStore

def findAuthorisation (s : MemoryStore) (id : String) : Option Authorisation :=
  s.authorisations.find? fun a => a.id == id

def findConsent (s : MemoryStore) (id : String) : Option Consent :=
  s.consents.find? fun c => c.id == id

def findPayment (s : MemoryStore) (id : String) : Option Payment :=
  s.payments.find? fun p => p.id == id

def siblings (s : MemoryStore) (parentId : String) (purpose : Purpose) : List Authorisation :=
  s.authorisations.filter (Store.isSibling parentId purpose)

def authorisation (s : MemoryStore) (id : String) : Except StoreError (Option Authorisation) :=
  match s.failReads with
  | some e => .error e
  | none => .ok (s.findAuthorisation id)

def authorisationsOf (s : MemoryStore) (parentId : String) (purpose : Purpose) :
    Except StoreError (List Authorisation) :=
  match s.failReads with
  | some e => .error e
  | none => .ok (s.siblings parentId purpose)

def nextId (s : MemoryStore) : String := s.ids.draw (s.authorisations.map (·.id))

def insertAuthorisation (s : MemoryStore) (d : Authorisation.Draft) :
    Except StoreError Authorisation × MemoryStore :=
  let a := Authorisation.ofDraft s.nextId d
  (.ok a, { s with
    authorisations := s.authorisations ++ [a]
    writes := { s.writes with authorisationInserts := s.writes.authorisationInserts + 1 } })

def modifyAuthorisation (s : MemoryStore) (id : String) (f : Authorisation → Authorisation) :
    MemoryStore :=
  { s with authorisations := s.authorisations.map fun a => if a.id == id then f a else a }

/-- Writes a consent status. An unknown consent is left alone and not counted. -/
def putConsentStatus (s : MemoryStore) (id : String) (status : Consent.Status) : MemoryStore :=
  match s.findConsent id with
  | none => s
  | some _ => { s with
      consents := s.consents.map fun c => if c.id == id then { c with status } else c
      writes := { s.writes with consentStatusUpdates := s.writes.consentStatusUpdates + 1 } }

def putPaymentStatus (s : MemoryStore) (id : String) (status : Payment.Status) : MemoryStore :=
  match s.findPayment id with
  | none => s
  | some _ => { s with
      payments := s.payments.map fun p => if p.id == id then { p with status } else p
      writes := { s.writes with paymentStatusUpdates := s.writes.paymentStatusUpdates + 1 } }

def putParentStatus (s : MemoryStore) (id : String) : Parent.Status → MemoryStore
  | .consent status => s.putConsentStatus id status
  | .payment status => s.putPaymentStatus id status

/-- The status that the parent takes once this authorisation is granted. A cancellation leaves the
payment to the bank. -/
def statusByProgress (s : MemoryStore) (a : Authorisation) : Option Parent.Status :=
  let siblings := s.siblings a.parentId a.purpose
  match a.purpose with
  | .account =>
    (s.findConsent a.parentId).bind fun c =>
      (c.statusAfter ((Parent.consent c).progress siblings)).map .consent
  | .initiation =>
    (s.findPayment a.parentId).bind fun p =>
      (p.statusAfter ((Parent.payment p).progress siblings)).map .payment
  | .cancellation => none

def settleParent (s : MemoryStore) (a : Authorisation) : MemoryStore :=
  match if a.status.isGranted then s.statusByProgress a else none with
  | some status => s.putParentStatus a.parentId status
  | none => s

def hasParent (s : MemoryStore) (id : String) : Parent.Status → Except StoreError Unit
  | .consent _ => if (s.findConsent id).isSome then .ok () else .error (.unknownConsent id)
  | .payment _ => if (s.findPayment id).isSome then .ok () else .error (.unknownPayment id)

/-- Checks a parent status before anything is written. A failure that was asked for is used up. -/
def checkParentStatus (s : MemoryStore) (id : String) :
    Option Parent.Status → Except StoreError Unit × MemoryStore
  | none => (.ok (), s)
  | some status =>
    match s.failParentStatus with
    | some e => (.error e, { s with failParentStatus := none })
    | none => (s.hasParent id status, s)

def writeUpdate (s : MemoryStore) (a : Authorisation) (u : Authorisation.Update) :
    Authorisation × MemoryStore :=
  let updated := a.apply u
  let s := s.modifyAuthorisation a.id fun _ => updated
  let s := { s with
    writes := { s.writes with authorisationUpdates := s.writes.authorisationUpdates + 1 } }
  let s := s.settleParent updated
  match u.parentStatus with
  | some status => (updated, s.putParentStatus a.parentId status)
  | none => (updated, s)

def updateAuthorisation (s : MemoryStore) (id : String) (version : Int)
    (u : Authorisation.Update) : Except StoreError Authorisation × MemoryStore :=
  match s.failUpdate with
  | some e => (.error e, { s with failUpdate := none })
  | none =>
    match s.findAuthorisation id with
    | none => (.error (.unknownAuthorisation id), s)
    | some a =>
      match Store.writeConflict a version with
      | some e => (.error e, s)
      | none =>
        match s.checkParentStatus a.parentId u.parentStatus with
        | (.error e, s) => (.error e, s)
        | (.ok (), s) =>
          let (updated, s) := s.writeUpdate a u
          (.ok updated, s)

def insertConsent (s : MemoryStore) (d : Consent.Draft) :
    Except StoreError Consent × MemoryStore :=
  match s.findConsent d.id with
  | some _ => (.error (.alreadyExists s!"Consent {d.id}"), s)
  | none =>
    let c := Consent.ofDraft d
    (.ok c, { s with consents := s.consents ++ [c] })

def setConsentStatus (s : MemoryStore) (id : String) (status : Consent.Status) :
    Except StoreError Consent × MemoryStore :=
  match s.findConsent id with
  | none => (.error (.unknownConsent id), s)
  | some c => (.ok { c with status }, s.putConsentStatus id status)

def insertPayment (s : MemoryStore) (p : Payment) : Except StoreError Payment × MemoryStore :=
  match s.findPayment p.id with
  | some _ => (.error (.alreadyExists s!"Payment {p.id}"), s)
  | none => (.ok p, { s with payments := s.payments ++ [p] })

def saveOrder (s : MemoryStore) (id : String) (order : Order) :
    Except StoreError Payment × MemoryStore :=
  match s.findPayment id with
  | none => (.error (.unknownPayment id), s)
  | some p =>
    let f (q : Payment) : Payment := { q with order := some order }
    (.ok (f p), { s with
      payments := s.payments.map fun q => if q.id == id then f q else q
      writes := { s.writes with ordersSaved := s.writes.ordersSaved + 1 } })

def setPaymentStatus (s : MemoryStore) (id : String) (status : Payment.Status) :
    Except StoreError Payment × MemoryStore :=
  match s.findPayment id with
  | none => (.error (.unknownPayment id), s)
  | some p => (.ok { p with status }, s.putPaymentStatus id status)

instance : Store MemoryStore where
  authorisation := authorisation
  authorisationsOf := authorisationsOf
  insertAuthorisation := insertAuthorisation
  updateAuthorisation := updateAuthorisation
  consent s id := .ok (s.findConsent id)
  insertConsent := insertConsent
  setConsentStatus := setConsentStatus
  payment s id := .ok (s.findPayment id)
  insertPayment := insertPayment
  saveOrder := saveOrder
  setPaymentStatus := setPaymentStatus

end MemoryStore

end StrongAuth
