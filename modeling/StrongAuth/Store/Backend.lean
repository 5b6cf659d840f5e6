import StrongAuth.Store.Memory
import StrongAuth.Store.Tables

set_option autoImplicit false

namespace StrongAuth

inductive Backend where
  | memory (store : MemoryStore)
  | tables (store : TableStore)

namespace Backend

def url : Backend → String
  | .memory _ => "memory://"
  | .tables s => s.url

def close : Backend → Backend
  | .memory s => .memory s
  | .tables s => .tables s.close

def reopen : Backend → Backend
  | .memory s => .memory s
  | .tables s => .tables s.reopen

def onWrite {α : Type} (memory : MemoryStore → Except StoreError α × MemoryStore)
    (tables : TableStore → Except StoreError α × TableStore) :
    Backend → Except StoreError α × Backend
  | .memory s =>
    let (answer, s) := memory s
    (answer, .memory s)
  | .tables s =>
    let (answer, s) := tables s
    (answer, .tables s)

def onRead {α : Type} (memory : MemoryStore → α) (tables : TableStore → α) : Backend → α
  | .memory s => memory s
  | .tables s => tables s

instance : Store Backend where
  authorisation s id := s.onRead (Store.authorisation · id) (Store.authorisation · id)
  authorisationsOf s parentId purpose :=
    s.onRead (Store.authorisationsOf · parentId purpose) (Store.authorisationsOf · parentId purpose)
  insertAuthorisation s d :=
    s.onWrite (Store.insertAuthorisation · d) (Store.insertAuthorisation · d)
  updateAuthorisation s id version u :=
    s.onWrite (Store.updateAuthorisation · id version u) (Store.updateAuthorisation · id version u)
  consent s id := s.onRead (Store.consent · id) (Store.consent · id)
  insertConsent s d := s.onWrite (Store.insertConsent · d) (Store.insertConsent · d)
  setConsentStatus s id status :=
    s.onWrite (Store.setConsentStatus · id status) (Store.setConsentStatus · id status)
  payment s id := s.onRead (Store.payment · id) (Store.payment · id)
  insertPayment s p := s.onWrite (Store.insertPayment · p) (Store.insertPayment · p)
  saveOrder s id order := s.onWrite (Store.saveOrder · id order) (Store.saveOrder · id order)
  setPaymentStatus s id status :=
    s.onWrite (Store.setPaymentStatus · id status) (Store.setPaymentStatus · id status)

end Backend

end StrongAuth
