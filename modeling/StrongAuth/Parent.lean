import StrongAuth.Authorisation
import StrongAuth.Json.Orders
import StrongAuth.Parent.Status

set_option autoImplicit false

namespace StrongAuth
open StrongAuth.Calendar

structure Consent where
  id : String
  status : Consent.Status
  psus : List Psu
  multilevel : Bool
  recurring : Bool
  frequencyPerDay : Int
  validUntil : Date
  deriving DecidableEq, Repr

namespace Consent

structure Draft where
  id : String
  psus : List Psu := []
  multilevel : Bool := false
  recurring : Bool := true
  frequencyPerDay : Int := 4
  validUntil : Date
  deriving DecidableEq, Repr

def ofDraft (d : Draft) : Consent :=
  { id := d.id, status := .received, psus := d.psus, multilevel := d.multilevel,
    recurring := d.recurring, frequencyPerDay := d.frequencyPerDay, validUntil := d.validUntil }

end Consent

structure Payment where
  id : String
  kind : Order.Kind
  product : String := "sepa-credit-transfers"
  status : Payment.Status := .rcvd
  psus : List Psu := []
  multilevel : Bool := false
  payload : Option (List UInt8) := none
  order : Option Order := none
  deriving DecidableEq, Repr

inductive PayloadError where
  | missing (paymentId : String)
  | malformed (paymentId : String) (kind : Order.Kind) (reason : String)
  deriving DecidableEq, Repr

namespace PayloadError

def message : PayloadError → String
  | missing id => s!"Payment {id} has neither a raw nor a materialised representation"
  | malformed id kind reason =>
    s!"Payment {id} could not be deserialized as a {kind.name} payment. {reason}"

end PayloadError

namespace Payment

def ofPayload (id : String) (kind : Order.Kind) (payload : List UInt8) : Payment :=
  { id, kind, payload := some payload }

def ofOrder (id : String) (order : Order) : Payment :=
  { id, kind := order.kind, order := some order }

def isMaterialised (p : Payment) : Bool := p.order.isSome

/-- What stands for the reader's account of a malformed payload. -/
def reasonWithheld : String := "<reason>"

/-- The order of a payment: the one that is stored, or else the one that its payload spells. -/
def orderOf (p : Payment) : Except PayloadError Order :=
  match p.order, p.payload with
  | some order, _ => .ok order
  | none, none => .error (.missing p.id)
  | none, some payload =>
    match Order.ofPayload? p.kind payload with
    | some order => .ok order
    | none => .error (.malformed p.id p.kind reasonWithheld)

end Payment

inductive Parent where
  | consent (consent : Consent)
  | payment (payment : Payment)
  deriving DecidableEq, Repr

namespace Parent

def id : Parent → String
  | .consent c => c.id
  | .payment p => p.id

def psus : Parent → List Psu
  | .consent c => c.psus
  | .payment p => p.psus

def multilevel : Parent → Bool
  | .consent c => c.multilevel
  | .payment p => p.multilevel

def isTerminal : Parent → Bool
  | .consent c => c.status.isTerminal
  | .payment p => p.status.isTerminal

def lists (parent : Parent) (psu : Psu) : Bool := parent.psus.any fun p => p.isSame psu

end Parent

end StrongAuth
