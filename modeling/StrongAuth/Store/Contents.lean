import StrongAuth.Store.Backend

set_option autoImplicit false

namespace StrongAuth

namespace Parent

namespace Status

def isTerminal : Status → Bool
  | .consent status => status.isTerminal
  | .payment status => status.isTerminal

end Status

/-- The part of a parent that can be read without its order. -/
structure Summary where
  status : Status
  multilevel : Bool
  deriving DecidableEq, Repr

def summary : Parent → Summary
  | .consent c => ⟨.consent c.status, c.multilevel⟩
  | .payment p => ⟨.payment p.status, p.multilevel⟩

theorem summary_multilevel (parent : Parent) : parent.summary.multilevel = parent.multilevel := by
  cases parent <;> rfl

end Parent

namespace MemoryStore

def summary? (s : MemoryStore) (p : Purpose) (id : String) : Option Parent.Summary :=
  if p.isPayment then (s.findPayment id).map fun q => (Parent.payment q).summary
  else (s.findConsent id).map fun c => (Parent.consent c).summary

def psusOf (s : MemoryStore) (p : Purpose) (id : String) : List Psu :=
  if p.isPayment then ((s.findPayment id).map (·.psus)).getD []
  else ((s.findConsent id).map (·.psus)).getD []

def isCalm (s : MemoryStore) : Bool :=
  s.failReads.isNone && s.failUpdate.isNone && s.failParentStatus.isNone

end MemoryStore

namespace TableStore

/-- The rows that can be read. -/
def records (s : TableStore) : List Authorisation :=
  s.authorisations.filterMap fun r => r.read.toOption

def summary? (s : TableStore) (p : Purpose) (id : String) : Option Parent.Summary :=
  if p.isPayment then
    (s.payments.find? fun r => r.id == id).map fun r => ⟨.payment r.status, r.multilevel⟩
  else (s.consents.find? fun r => r.id == id).map fun r => ⟨.consent r.status, r.multilevel⟩

end TableStore

namespace Backend

def nextId : Backend → String
  | .memory s => s.nextId
  | .tables s => s.nextId

def records : Backend → List Authorisation
  | .memory s => s.authorisations
  | .tables s => s.records

def summary? : Backend → Purpose → String → Option Parent.Summary
  | .memory s => s.summary?
  | .tables s => s.summary?

def consent? : Backend → String → Option Consent
  | .memory s => s.findConsent
  | .tables s => s.readConsent

/-- The payment with this id, unless its row cannot be read. -/
def payment? : Backend → String → Option Payment
  | .memory s => s.findPayment
  | .tables s => fun id => (s.readPayment id).toOption.join

def hasParent (b : Backend) (id : String) : Parent.Status → Bool
  | .consent _ => (b.consent? id).isSome
  | .payment _ => (b.payment? id).isSome

/-- A consent and a payment of one id have one list of PSUs between them. -/
def sharesPsus : Backend → Bool
  | .memory _ => false
  | .tables _ => true

/-- The PSUs that are listed for it. The tables file them under the id alone. -/
def psusOf : Backend → Purpose → String → List Psu
  | .memory s => s.psusOf
  | .tables s => fun _ => s.psusOf

def isFresh : Backend → Bool
  | .memory s => s.authorisations.isEmpty
  | .tables s => s.authorisations.isEmpty

def isEmpty : Backend → Bool
  | .memory s => s.authorisations.isEmpty && s.consents.isEmpty && s.payments.isEmpty
  | .tables s =>
    s.authorisations.isEmpty && s.consents.isEmpty && s.payments.isEmpty && s.psus.isEmpty

/-- The store answers every read and accepts every write that it should. -/
def isCalm : Backend → Bool
  | .memory s => s.isCalm
  | .tables s => !s.isClosed

def siblings (b : Backend) (parentId : String) (p : Purpose) : List Authorisation :=
  b.records.filter (Store.isSibling parentId p)

end Backend

end StrongAuth
