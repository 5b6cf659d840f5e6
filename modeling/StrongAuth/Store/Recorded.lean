import StrongAuth.Store.Operation

set_option autoImplicit false

namespace StrongAuth.Store

/-- What became of a store, with the writes that made it so. -/
structure Recorded {σ : Type} [Store σ] (base : σ) where
  store : σ
  writes : List Operation
  replayed : store = performed base writes

namespace Recorded

variable {σ : Type} [Store σ] {base : σ}

def start (base : σ) : Recorded base := ⟨base, [], rfl⟩

def noting {α : Type} (s : Recorded base) (op : Operation) (written : Except StoreError α × σ)
    (performs : written.2 = (op.perform s.store).2) : Except StoreError α × Recorded base :=
  (written.1, {
    store := written.2
    writes := s.writes ++ [op]
    replayed := by
      rw [performed_append, ← s.replayed, performs]
      rfl })

instance : Store (Recorded base) where
  authorisation s := Store.authorisation s.store
  authorisationsOf s := Store.authorisationsOf s.store
  insertAuthorisation s d :=
    s.noting (.insertAuthorisation d) (Store.insertAuthorisation s.store d) rfl
  updateAuthorisation s id version u :=
    s.noting (.updateAuthorisation id version u) (Store.updateAuthorisation s.store id version u) rfl
  consent s := Store.consent s.store
  insertConsent s d := s.noting (.insertConsent d) (Store.insertConsent s.store d) rfl
  setConsentStatus s id status :=
    s.noting (.setConsentStatus id status) (Store.setConsentStatus s.store id status) rfl
  payment s := Store.payment s.store
  insertPayment s p := s.noting (.insertPayment p) (Store.insertPayment s.store p) rfl
  saveOrder s id order := s.noting (.saveOrder id order) (Store.saveOrder s.store id order) rfl
  setPaymentStatus s id status :=
    s.noting (.setPaymentStatus id status) (Store.setPaymentStatus s.store id status) rfl

end Recorded

end StrongAuth.Store
