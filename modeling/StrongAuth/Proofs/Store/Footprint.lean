import StrongAuth.Proofs.Store.Lookups
import StrongAuth.Proofs.Store.Rewriting

set_option autoImplicit false

namespace StrongAuth
open StrongAuth.Store

/-- A consent or a payment. The two sorts have their ids apart. -/
structure Parent.Key where
  isPayment : Bool
  id : String
  deriving DecidableEq

/-- What an authorisation is called and what it is for. It keeps this for good. -/
structure Label where
  id : String
  parentId : String
  purpose : Purpose
  deriving DecidableEq

namespace Label

def parentKey (l : Label) : Parent.Key := ⟨l.purpose.isPayment, l.parentId⟩

end Label

def Authorisation.label (a : Authorisation) : Label := ⟨a.id, a.parentId, a.purpose⟩

def AuthorisationRow.label (r : AuthorisationRow) : Label := ⟨r.id, r.parentId, r.purpose⟩

theorem TableStore.label_of_read {r : AuthorisationRow} {a : Authorisation} (h : r.read = .ok a) :
    a.label = r.label := by
  obtain ⟨id, parentId, purpose⟩ := TableStore.id_of_read h
  simp only [Authorisation.label, AuthorisationRow.label, id, parentId, purpose]

namespace Label

/-- Only the authorisation that is named is rewritten, and it remains the one it was. -/
structure MayRewrite (l x y : Label) : Prop where
  named : x.id = l.id
  id : y.id = l.id
  same : x = l → y = l

def MayRestateConsent (l : Label) (x y : Consent) : Prop :=
  l.purpose.isPayment = false ∧ x.id = l.parentId ∧ ∃ status, y = { x with status }

def MayRestateConsentRow (l : Label) (x y : ConsentRow) : Prop :=
  l.purpose.isPayment = false ∧ x.id = l.parentId ∧ ∃ status, y = { x with status }

def MayRestatePayment (l : Label) (x y : Payment) : Prop :=
  l.purpose.isPayment = true ∧ x.id = l.parentId ∧ ∃ status order,
    y = { x with status, order } ∧ (l.purpose ≠ .cancellation → order = x.order)

def MayRestatePaymentRow (l : Label) (x y : PaymentRow) : Prop :=
  l.purpose.isPayment = true ∧ x.id = l.parentId ∧ ∃ status order,
    y = { x with status, order } ∧ (l.purpose ≠ .cancellation → order = x.order)

variable {l : Label}

theorem MayRewrite.trans (x y z : Label) (h : l.MayRewrite x y) (k : l.MayRewrite y z) :
    l.MayRewrite x z :=
  ⟨h.named, k.id, fun own => k.same (h.same own)⟩

theorem MayRestateConsent.trans (x y z : Consent) (h : l.MayRestateConsent x y)
    (k : l.MayRestateConsent y z) : l.MayRestateConsent x z := by
  obtain ⟨sort, own, first, rfl⟩ := h
  obtain ⟨-, -, second, rfl⟩ := k
  exact ⟨sort, own, second, rfl⟩

theorem MayRestateConsentRow.trans (x y z : ConsentRow) (h : l.MayRestateConsentRow x y)
    (k : l.MayRestateConsentRow y z) : l.MayRestateConsentRow x z := by
  obtain ⟨sort, own, first, rfl⟩ := h
  obtain ⟨-, -, second, rfl⟩ := k
  exact ⟨sort, own, second, rfl⟩

theorem MayRestatePayment.trans (x y z : Payment) (h : l.MayRestatePayment x y)
    (k : l.MayRestatePayment y z) : l.MayRestatePayment x z := by
  obtain ⟨sort, own, first, kept, rfl, silent⟩ := h
  obtain ⟨-, -, second, order, rfl, silent'⟩ := k
  exact ⟨sort, own, second, order, rfl, fun other => (silent' other).trans (silent other)⟩

theorem MayRestatePaymentRow.trans (x y z : PaymentRow) (h : l.MayRestatePaymentRow x y)
    (k : l.MayRestatePaymentRow y z) : l.MayRestatePaymentRow x z := by
  obtain ⟨sort, own, first, kept, rfl, silent⟩ := h
  obtain ⟨-, -, second, order, rfl, silent'⟩ := k
  exact ⟨sort, own, second, order, rfl, fun other => (silent' other).trans (silent other)⟩

end Label

namespace MemoryStore

/-- An update of the authorisation with this label changed nothing beyond its reach, and did not
make the store fail. -/
structure Frame (l : Label) (s t : MemoryStore) : Prop where
  authorisations : Rewritten (fun x y => l.MayRewrite x.label y.label)
    s.authorisations t.authorisations
  consents : Rewritten l.MayRestateConsent s.consents t.consents
  payments : Rewritten l.MayRestatePayment s.payments t.payments
  calm : s.isCalm = true → t.isCalm = true

variable {l : Label} {s t r : MemoryStore}

namespace Frame

theorem refl (l : Label) (s : MemoryStore) : Frame l s s :=
  ⟨.refl _ _, .refl _ _, .refl _ _, fun calm => calm⟩

theorem trans (h : Frame l s t) (k : Frame l t r) : Frame l s r where
  authorisations := h.authorisations.trans
    (fun x y z => Label.MayRewrite.trans x.label y.label z.label) k.authorisations
  consents := h.consents.trans Label.MayRestateConsent.trans k.consents
  payments := h.payments.trans Label.MayRestatePayment.trans k.payments
  calm quiet := k.calm (h.calm quiet)

end Frame

theorem putParentStatus_touches (s : MemoryStore) {st : Parent.Status}
    (sort : st.concerns l.purpose = true) : Frame l s (s.putParentStatus l.parentId st) := by
  cases st with
  | consent status =>
    have account : l.purpose.isPayment = false := by simpa [Parent.Status.concerns] using sort
    simp only [putParentStatus, putConsentStatus]
    split
    · exact .refl l s
    · exact ⟨.refl _ _, rewritten_at fun x _ own => ⟨account, own, status, rfl⟩, .refl _ _,
        fun calm => calm⟩
  | payment status =>
    simp only [putParentStatus, putPaymentStatus]
    split
    · exact .refl l s
    · exact ⟨.refl _ _, .refl _ _, rewritten_at fun x _ own =>
        ⟨sort, own, status, x.order, rfl, fun _ => rfl⟩, fun calm => calm⟩

theorem settleParent_touches (s : MemoryStore) (a : Authorisation) :
    Frame a.label s (s.settleParent a) := by
  have follows := s.due_of_update a
  unfold settleParent
  split
  · next st due =>
    rw [due] at follows
    exact s.putParentStatus_touches (l := a.label) follows.concerns.2
  · exact .refl _ s

theorem writeUpdate_touches (s : MemoryStore) (a : Authorisation) {u : Authorisation.Update}
    (sort : ∀ st, u.parentStatus = some st → st.concerns a.purpose = true) :
    Frame a.label s (s.writeUpdate a u).2 := by
  have rewritten : Frame a.label s { s.modifyAuthorisation a.id fun _ => a.apply u with
      writes := { s.writes with authorisationUpdates := s.writes.authorisationUpdates + 1 } } :=
    ⟨rewritten_at fun x _ named => ⟨named, rfl, fun _ => rfl⟩, .refl _ _, .refl _ _,
      fun calm => calm⟩
  have advanced : Frame a.label s (s.advanced a u) :=
    rewritten.trans (settleParent_touches _ (a.apply u))
  rw [writeUpdate_eq]
  cases reported : u.parentStatus with
  | none => exact advanced
  | some st => exact advanced.trans (putParentStatus_touches (l := a.label) _ (sort st reported))

theorem checkParentStatus_touches (l : Label) (s : MemoryStore) (id : String)
    (reported : Option Parent.Status) : Frame l s (s.checkParentStatus id reported).2 := by
  obtain ⟨-, -, -, calm⟩ := s.checkParentStatus_frame id reported
  unfold checkParentStatus at calm ⊢
  split
  · exact .refl l s
  · split
    · next failing =>
      rw [failing] at calm
      exact ⟨.refl _ _, .refl _ _, .refl _ _, calm⟩
    · exact .refl l s

theorem updateAuthorisation_touches
    (own : ∀ a, s.findAuthorisation l.id = some a → a.label = l) (version : Int)
    {u : Authorisation.Update}
    (sort : ∀ st, u.parentStatus = some st → st.concerns l.purpose = true) :
    Frame l s (s.updateAuthorisation l.id version u).2 := by
  unfold updateAuthorisation
  split
  · next failing =>
    refine ⟨.refl _ _, .refl _ _, .refl _ _, fun calm => ?_⟩
    rw [isCalm_iff, failing] at calm
    exact nomatch calm.2.1
  · split
    · exact .refl _ s
    · next a found =>
      obtain rfl := own a found
      split
      · exact .refl _ s
      · have checked := s.checkParentStatus_touches a.label a.parentId u.parentStatus
        split
        · next refused =>
          rw [refused] at checked
          exact checked
        · next t accepted =>
          rw [accepted] at checked
          exact checked.trans (t.writeUpdate_touches a sort)

theorem saveOrder_touches (s : MemoryStore) (cancels : l.purpose = .cancellation) (order : Order) :
    Frame l s (s.saveOrder l.parentId order).2 := by
  have payment : l.purpose.isPayment = true := by
    rw [cancels]
    rfl
  unfold saveOrder
  split
  · exact .refl l s
  · refine ⟨.refl _ _, .refl _ _, rewritten_at fun x _ own => ?_, fun calm => calm⟩
    exact ⟨payment, own, x.status, some order, rfl, fun other => absurd cancels other⟩

end MemoryStore

namespace TableStore

structure Frame (l : Label) (s t : TableStore) : Prop where
  authorisations : Rewritten (fun x y => l.MayRewrite x.label y.label)
    s.authorisations t.authorisations
  consents : Rewritten l.MayRestateConsentRow s.consents t.consents
  payments : Rewritten l.MayRestatePaymentRow s.payments t.payments
  psus : t.psus = s.psus
  isClosed : t.isClosed = s.isClosed
  database : t.toDatabase = s.toDatabase

variable {l : Label} {s t r : TableStore}

namespace Frame

theorem refl (l : Label) (s : TableStore) : Frame l s s :=
  ⟨.refl _ _, .refl _ _, .refl _ _, rfl, rfl, rfl⟩

theorem trans (h : Frame l s t) (k : Frame l t r) : Frame l s r where
  authorisations := h.authorisations.trans
    (fun x y z => Label.MayRewrite.trans x.label y.label z.label) k.authorisations
  consents := h.consents.trans Label.MayRestateConsentRow.trans k.consents
  payments := h.payments.trans Label.MayRestatePaymentRow.trans k.payments
  psus := k.psus.trans h.psus
  isClosed := k.isClosed.trans h.isClosed
  database := k.database.trans h.database

end Frame

theorem putParentStatus_touches {st : Parent.Status} (sort : st.concerns l.purpose = true)
    (h : s.putParentStatus l.parentId st = .ok t) : Frame l s t := by
  cases st with
  | consent status =>
    have account : l.purpose.isPayment = false := by simpa [Parent.Status.concerns] using sort
    simp only [putParentStatus, putConsentStatus, writeConsent] at h
    split at h
    · next wrote =>
      split at wrote
      · cases wrote
      · cases wrote
        cases h
        exact ⟨.refl _ _, rewritten_at fun x _ own => ⟨account, own, status, rfl⟩, .refl _ _,
          rfl, rfl, rfl⟩
    · cases h
  | payment status =>
    simp only [putParentStatus, putPaymentStatus, writePayment] at h
    split at h
    · next wrote =>
      split at wrote
      · cases wrote
      · obtain ⟨-, rfl⟩ := Prod.mk.inj wrote
        cases h
        exact ⟨.refl _ _, .refl _ _, rewritten_at fun x _ own =>
          ⟨sort, own, status, x.order, rfl, fun _ => rfl⟩, rfl, rfl, rfl⟩
    · cases h

theorem putOptionalStatus_touches {reported : Option Parent.Status}
    (sort : ∀ st, reported = some st → st.concerns l.purpose = true)
    (h : s.putOptionalStatus l.parentId reported = .ok t) : Frame l s t := by
  cases reported with
  | none =>
    cases h
    exact .refl l s
  | some st => exact putParentStatus_touches (sort st rfl) h

theorem concerns_of_statusByProgress {a : Authorisation} {due : Option Parent.Status}
    (h : s.statusByProgress a = .ok due) (st : Parent.Status) (some_st : due = some st) :
    st.concerns a.purpose = true := by
  subst some_st
  unfold statusByProgress at h
  cases kind : a.purpose with
  | account =>
    simp only [kind] at h
    split at h
    · cases h
    · obtain ⟨siblings, -, h⟩ := bind_eq_ok h
      obtain ⟨status, -, rfl⟩ := Option.map_eq_some_iff.mp (Except.ok.inj h)
      rfl
  | initiation =>
    simp only [kind] at h
    obtain ⟨found, -, h⟩ := bind_eq_ok h
    split at h
    · cases h
    · obtain ⟨siblings, -, h⟩ := bind_eq_ok h
      obtain ⟨status, -, rfl⟩ := Option.map_eq_some_iff.mp (Except.ok.inj h)
      rfl
  | cancellation =>
    rw [kind] at h
    cases h

theorem settleParent_touches {a : Authorisation} (h : s.settleParent a = .ok t) :
    Frame a.label s t := by
  unfold settleParent at h
  split at h
  · obtain ⟨due, progress, put⟩ := bind_eq_ok h
    exact putOptionalStatus_touches (l := a.label) (concerns_of_statusByProgress progress) put
  · cases h
    exact .refl _ s

theorem transact_touches {updated : Authorisation} {version : Int} {u : Authorisation.Update}
    (own : ∀ a, s.readAuthorisation l.id = .ok (some a) → a.label = l)
    (sort : ∀ st, u.parentStatus = some st → st.concerns l.purpose = true)
    (h : s.transact l.id version u = .ok (updated, t)) : Frame l s t := by
  obtain ⟨r, a, s₁, row, read, -, readBack, -, settled, put⟩ := transact_steps h
  have found : s.readAuthorisation l.id = .ok (some a) := by
    unfold readAuthorisation
    rw [row]
    exact congrArg (Except.map some) read
  have label : updated.label = l :=
    (label_of_read readBack).trans ((label_of_read read).symm.trans (own a found))
  have rewritten : Frame l s (s.modifyRow l.id fun r => r.apply u) :=
    ⟨rewritten_at fun x _ named => ⟨named, named, fun same => same⟩, .refl _ _, .refl _ _,
      rfl, rfl, rfl⟩
  subst label
  exact (rewritten.trans (settleParent_touches settled)).trans (putOptionalStatus_touches sort put)

theorem writing_touches {α : Type} {answer : Except StoreError α × TableStore}
    (h : Frame l s answer.2) : Frame l s (s.writing answer).2 := by
  unfold writing
  split
  · exact .refl l s
  · exact h

theorem updateAuthorisation_touches
    (own : ∀ a, s.readAuthorisation l.id = .ok (some a) → a.label = l) (version : Int)
    {u : Authorisation.Update}
    (sort : ∀ st, u.parentStatus = some st → st.concerns l.purpose = true) :
    Frame l s (s.updateAuthorisation l.id version u).2 := by
  refine writing_touches ?_
  split
  · next updated t transacted => exact transact_touches own sort transacted
  · exact .refl _ s

theorem saveOrder_touches (s : TableStore) (cancels : l.purpose = .cancellation) (order : Order) :
    Frame l s (s.saveOrder l.parentId order).2 := by
  have payment : l.purpose.isPayment = true := by
    rw [cancels]
    rfl
  refine writing_touches ?_
  unfold writePayment
  split
  · exact .refl l s
  · refine ⟨.refl _ _, .refl _ _, rewritten_at fun x _ own => ?_, rfl, rfl, rfl⟩
    exact ⟨payment, own, x.status, some order.toJson.write, rfl, fun other => absurd cancels other⟩

end TableStore

namespace Backend

inductive Frame (l : Label) : Backend → Backend → Prop where
  | memory {s t : MemoryStore} (h : s.Frame l t) : Frame l (.memory s) (.memory t)
  | tables {s t : TableStore} (h : s.Frame l t) : Frame l (.tables s) (.tables t)

variable {l : Label} {s t r : Backend}

theorem Frame.refl (l : Label) (s : Backend) : Frame l s s := by
  cases s with
  | memory s => exact .memory (.refl l s)
  | tables s => exact .tables (.refl l s)

theorem Frame.trans (h : Frame l s t) (k : Frame l t r) : Frame l s r := by
  cases h with
  | memory h =>
    cases k with
    | memory k => exact .memory (h.trans k)
  | tables h =>
    cases k with
    | tables k => exact .tables (h.trans k)

def authorisation? : Backend → String → Option Authorisation
  | .memory s => s.findAuthorisation
  | .tables s => fun id => (s.readAuthorisation id).toOption.join

theorem authorisation?_of_read {m : TableStore} {id : String} {found : Option Authorisation}
    (h : m.readAuthorisation id = .ok found) : (Backend.tables m).authorisation? id = found := by
  change (m.readAuthorisation id).toOption.join = found
  rw [h]
  rfl

theorem authorisation?_of_ok {id : String} {found : Option Authorisation}
    (h : Store.authorisation s id = .ok found) : s.authorisation? id = found := by
  cases s with
  | memory m =>
    change m.authorisation id = .ok found at h
    unfold MemoryStore.authorisation at h
    split at h
    · cases h
    · exact Except.ok.inj h
  | tables m =>
    change m.reading (m.readAuthorisation id) = .ok found at h
    unfold TableStore.reading at h
    split at h
    · cases h
    · exact authorisation?_of_read h

theorem id_of_authorisation? {id : String} {a : Authorisation}
    (h : s.authorisation? id = some a) : a.id = id := by
  cases s with
  | memory m => simpa using List.find?_some h
  | tables m =>
    simp only [authorisation?, TableStore.readAuthorisation] at h
    split at h
    · cases h
    · next r row =>
      cases read : r.read with
      | error e =>
        rw [read] at h
        cases h
      | ok b =>
        rw [read] at h
        cases h
        rw [(TableStore.id_of_read read).1]
        simpa using List.find?_some row

theorem id_of_found {id : String} {a : Authorisation}
    (found : Store.authorisation s id = .ok (some a)) : a.id = id :=
  id_of_authorisation? (authorisation?_of_ok found)

theorem own_of_found {id : String} {a : Authorisation}
    (found : Store.authorisation s id = .ok (some a)) :
    Store.authorisation s a.id = .ok (some a) := by
  rw [id_of_found found]
  exact found

theorem updateAuthorisation_touches (own : ∀ a, s.authorisation? l.id = some a → a.label = l)
    (version : Int) {u : Authorisation.Update}
    (sort : ∀ st, u.parentStatus = some st → st.concerns l.purpose = true) :
    Frame l s (Store.updateAuthorisation s l.id version u).2 := by
  cases s with
  | memory m => exact .memory (m.updateAuthorisation_touches own version sort)
  | tables m =>
    exact .tables (m.updateAuthorisation_touches
      (fun a found => own a (authorisation?_of_read found)) version sort)

theorem saveOrder_touches (s : Backend) (cancels : l.purpose = .cancellation) (order : Order) :
    Frame l s (Store.saveOrder s l.parentId order).2 := by
  cases s with
  | memory m => exact .memory (m.saveOrder_touches cancels order)
  | tables m => exact .tables (m.saveOrder_touches cancels order)

end Backend

end StrongAuth
