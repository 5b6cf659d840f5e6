import StrongAuth.Proofs.Store.Lookups
import StrongAuth.Store.Operation

set_option autoImplicit false

/-!
# Stores as ledgers

Without its authorisations and without any status, a store is a ledger of consents and payments and
of the PSUs that are filed for them. Both stores enter what they accept by the same rule. They differ
in one thing: the tables file the PSUs of a consent and of a payment together if the two share an id.
-/
namespace StrongAuth

namespace Consent

def substance (c : Consent) : Consent := { c with status := .received, psus := [] }

end Consent

namespace Payment

def substance (p : Payment) : Payment := { p with status := .rcvd, psus := [] }

end Payment

namespace Store

@[ext]
structure Ledger where
  consents : String → Option Consent
  payments : String → Option Payment
  psus : Lists

namespace Operation

def filed (shares : Bool) (p : Purpose) (i : String) : Operation → List Psu
  | insertConsent d => if (shares || !p.isPayment) && i == d.id then d.psus else []
  | insertPayment q => if (shares || p.isPayment) && i == q.id then q.psus else []
  | _ => []

variable {shares : Bool} {p : Purpose} {i : String} {op : Operation}

theorem filed_own (own : op.newId? p.isPayment = some i) : op.filed shares p i = op.newPsus := by
  cases op <;> cases sort : p.isPayment <;>
    simp_all [newId?, newConsentId?, newPaymentId?, filed, newPsus]

/-- An insertion under another id, or of the other sort, files nothing here. Only the tables do not
tell the sorts apart. -/
theorem filed_other (other : op.newId? p.isPayment ≠ some i) : op.filed shares p i =
    if shares = true ∧ op.newId? (!p.isPayment) = some i then op.newPsus else [] := by
  cases op with
  | insertConsent d =>
    rw [filed, BEq.comm]
    cases sort : p.isPayment <;> cases shares <;>
      simp_all [newId?, newConsentId?, newPaymentId?, newPsus]
  | insertPayment q =>
    rw [filed, BEq.comm]
    cases sort : p.isPayment <;> cases shares <;>
      simp_all [newId?, newConsentId?, newPaymentId?, newPsus]
  | _ => simp [filed, newPsus]

end Operation

namespace Ledger

def withConsent (l : Ledger) (c : Consent) : String → Option Consent := fun i =>
  if i = c.id then some c.substance else l.consents i

def withPayment (l : Ledger) (p : Payment) : String → Option Payment := fun i =>
  if i = p.id then some p.substance else l.payments i

def withOrder (l : Ledger) (id : String) (order : Order) : String → Option Payment := fun i =>
  (l.payments i).map fun p => if i = id then { p with order := some order } else p

/-- The ledger after an operation that is accepted. -/
def enter (shares : Bool) (l : Ledger) (op : Operation) : Ledger where
  consents := match op with
    | .insertConsent d => l.withConsent (.ofDraft d)
    | _ => l.consents
  payments := match op with
    | .insertPayment p => l.withPayment p
    | .saveOrder id order => l.withOrder id order
    | _ => l.payments
  psus p i := l.psus p i ++ op.filed shares p i

def hasParent (l : Ledger) (id : String) : Parent.Status → Bool
  | .consent _ => (l.consents id).isSome
  | .payment _ => (l.payments id).isSome

def after {α : Type} (shares : Bool) (l : Ledger) (op : Operation) (answer : Except StoreError α) :
    Ledger :=
  if answer.isOk then l.enter shares op else l

variable {α : Type} {shares : Bool} {l : Ledger} {op : Operation}

theorem after_ok (x : α) : l.after shares op (.ok x) = l.enter shares op := rfl

theorem after_map {β : Type} (x : Except StoreError α) (f : α → β) :
    l.after shares op (x.map f) = l.after shares op x := by
  cases x <;> rfl

theorem after_silent (x : Except StoreError α)
    (consents : (l.enter shares op).consents = l.consents)
    (payments : (l.enter shares op).payments = l.payments)
    (filed : ∀ p i, op.filed shares p i = []) : l.after shares op x = l := by
  cases x with
  | error e => rfl
  | ok a =>
    refine Ledger.ext consents payments (funext fun p => funext fun i => ?_)
    change l.psus p i ++ op.filed shares p i = l.psus p i
    rw [filed, List.append_nil]

end Ledger

end Store

namespace MemoryStore
open StrongAuth.Store

def ledger (s : MemoryStore) : Ledger where
  consents i := (s.findConsent i).map Consent.substance
  payments i := (s.findPayment i).map Payment.substance
  psus := s.psusOf

theorem ledger_putParentStatus (s : MemoryStore) (id : String) (st : Parent.Status) :
    (s.putParentStatus id st).ledger = s.ledger := by
  refine Ledger.ext (funext fun i => ?_) (funext fun i => ?_) (s.psusOf_putParentStatus id st)
  · cases st with
    | consent st =>
      simp only [ledger, putParentStatus, findConsent_putConsentStatus, Option.map_map]
      refine congrArg (fun f => Option.map f _) (funext fun c => ?_)
      by_cases here : i = id <;> simp [here, Consent.substance]
    | payment st => simp only [ledger, putParentStatus, findConsent_putPaymentStatus]
  · cases st with
    | consent st => simp only [ledger, putParentStatus, findPayment_putConsentStatus]
    | payment st =>
      simp only [ledger, putParentStatus, findPayment_putPaymentStatus, Option.map_map]
      refine congrArg (fun f => Option.map f _) (funext fun p => ?_)
      by_cases here : i = id <;> simp [here, Payment.substance]

theorem ledger_settleParent (s : MemoryStore) (a : Authorisation) :
    (s.settleParent a).ledger = s.ledger := by
  unfold settleParent
  split
  · exact s.ledger_putParentStatus _ _
  · rfl

theorem ledger_writeUpdate (s : MemoryStore) (a : Authorisation) (u : Authorisation.Update) :
    (s.writeUpdate a u).2.ledger = s.ledger := by
  have advanced : (s.advanced a u).ledger = s.ledger := by
    unfold advanced
    exact ledger_settleParent _ _
  rw [writeUpdate_eq]
  cases u.parentStatus with
  | none => exact advanced
  | some st => exact (ledger_putParentStatus _ _ st).trans advanced

theorem ledger_updateAuthorisation (s : MemoryStore) (id : String) (version : Int)
    (u : Authorisation.Update) : (s.updateAuthorisation id version u).2.ledger = s.ledger := by
  unfold updateAuthorisation
  split
  · rfl
  · split
    · rfl
    · next a _ =>
      split
      · rfl
      · have checked : (s.checkParentStatus a.parentId u.parentStatus).2.ledger = s.ledger := by
          unfold checkParentStatus
          split
          · rfl
          · split <;> rfl
        split
        · next e => rwa [e] at checked
        · next e =>
          rw [e] at checked
          exact (ledger_writeUpdate _ a u).trans checked

theorem ledger_insertConsent (s : MemoryStore) (d : Consent.Draft) :
    (s.insertConsent d).2.ledger =
      s.ledger.after false (.insertConsent d) (s.insertConsent d).1 := by
  unfold insertConsent
  cases missing : s.findConsent d.id with
  | some c => rfl
  | none =>
    have found (i : String) := findConsent_inserted (c := Consent.ofDraft d) missing i
    rw [Ledger.after_ok]
    refine Ledger.ext (funext fun i => ?_) rfl (funext fun p => funext fun i => ?_)
    · simp only [ledger, Ledger.enter, Ledger.withConsent, found]
      by_cases here : i = (Consent.ofDraft d).id <;> simp [here]
    · cases kind : p.isPayment with
      | true => simp [ledger, Ledger.enter, psusOf, kind, Operation.filed, findPayment]
      | false =>
        simp only [ledger, Ledger.enter, psusOf, kind, found, Operation.filed]
        by_cases here : i = d.id
        · simp [here, missing, Consent.ofDraft]
        · simp [here, Consent.ofDraft]

theorem ledger_insertPayment (s : MemoryStore) (q : Payment) :
    (s.insertPayment q).2.ledger =
      s.ledger.after false (.insertPayment q) (s.insertPayment q).1 := by
  unfold insertPayment
  cases missing : s.findPayment q.id with
  | some r => rfl
  | none =>
    have found (i : String) := findPayment_inserted missing i
    rw [Ledger.after_ok]
    refine Ledger.ext rfl (funext fun i => ?_) (funext fun p => funext fun i => ?_)
    · simp only [ledger, Ledger.enter, Ledger.withPayment, found]
      by_cases here : i = q.id <;> simp [here]
    · cases kind : p.isPayment with
      | false => simp [ledger, Ledger.enter, psusOf, kind, Operation.filed, findConsent]
      | true =>
        simp only [ledger, Ledger.enter, psusOf, kind, found, Operation.filed]
        by_cases here : i = q.id
        · simp [here, missing]
        · simp [here]

theorem ledger_saveOrder (s : MemoryStore) (id : String) (order : Order) :
    (s.saveOrder id order).2.ledger =
      s.ledger.after false (.saveOrder id order) (s.saveOrder id order).1 := by
  have lists := (saveOrder_parents (x := (s.saveOrder id order).1) rfl).2
  unfold saveOrder at lists ⊢
  cases there : s.findPayment id with
  | none => rfl
  | some q =>
    rw [there] at lists
    have found (i : String) := find?_rewritten Payment.id (fun q => { q with order := some order })
      (fun _ => rfl) s.payments id i
    rw [Ledger.after_ok]
    refine Ledger.ext rfl (funext fun i => ?_) (funext fun p => funext fun i => ?_)
    · simp only [ledger, Ledger.enter, Ledger.withOrder, findPayment, found, Option.map_map]
      refine congrArg (fun f => Option.map f _) (funext fun p => ?_)
      by_cases here : i = id <;> simp [here, Payment.substance]
    · refine (congrFun (congrFun lists p) i).trans ?_
      simp [ledger, Ledger.enter, Operation.filed]

theorem ledger_setConsentStatus (s : MemoryStore) (id : String) (st : Consent.Status) :
    (s.setConsentStatus id st).2.ledger = s.ledger := by
  unfold setConsentStatus
  split
  · rfl
  · exact s.ledger_putParentStatus id (.consent st)

theorem ledger_setPaymentStatus (s : MemoryStore) (id : String) (st : Payment.Status) :
    (s.setPaymentStatus id st).2.ledger = s.ledger := by
  unfold setPaymentStatus
  split
  · rfl
  · exact s.ledger_putParentStatus id (.payment st)

theorem ledger_perform (s : MemoryStore) (op : Operation) :
    (op.perform s).2.ledger = s.ledger.after false op (op.perform s).1 := by
  cases op with
  | authorisation | authorisationsOf | consent | payment =>
    exact (Ledger.after_silent _ rfl rfl fun _ _ => rfl).symm
  | insertAuthorisation d => exact (Ledger.after_silent _ rfl rfl fun _ _ => rfl).symm
  | updateAuthorisation id version u =>
    exact (s.ledger_updateAuthorisation id version u).trans
      (Ledger.after_silent _ rfl rfl fun _ _ => rfl).symm
  | insertConsent d => exact (s.ledger_insertConsent d).trans (Ledger.after_map _ _).symm
  | setConsentStatus id st =>
    refine Eq.trans ?_ (Ledger.after_silent _ rfl rfl fun _ _ => rfl).symm
    exact s.ledger_setConsentStatus id st
  | insertPayment q => exact (s.ledger_insertPayment q).trans (Ledger.after_map _ _).symm
  | saveOrder id order => exact (s.ledger_saveOrder id order).trans (Ledger.after_map _ _).symm
  | setPaymentStatus id st =>
    refine Eq.trans ?_ (Ledger.after_silent _ rfl rfl fun _ _ => rfl).symm
    exact s.ledger_setPaymentStatus id st

end MemoryStore

namespace TableStore
open StrongAuth.Store

def ledger (t : TableStore) : Ledger where
  consents i := (t.readConsent i).map Consent.substance
  payments i := (t.readPayment i).toOption.join.map Payment.substance
  psus _ := t.psusOf

def ReadsPayments (t : TableStore) : Prop := ∀ i, ∃ x, t.readPayment i = .ok x

variable {t t' : TableStore}

theorem payments_ledger {i : String} {x : Option Payment} (read : t.readPayment i = .ok x) :
    t.ledger.payments i = x.map Payment.substance := by
  simp only [ledger, read]
  rfl

theorem payments_of_rows (h : t.ReadsPayments) (rows : t'.payments = t.payments) :
    t'.ReadsPayments ∧ t'.ledger.payments = t.ledger.payments := by
  have reread (i : String) : ∃ y, t'.readPayment i = .ok y ∧
      y.map Payment.substance = t.ledger.payments i := by
    obtain ⟨x, read⟩ := h i
    rw [payments_ledger read]
    cases x with
    | none =>
      refine ⟨none, readPayment_none_iff.mpr ?_, rfl⟩
      rw [rows]
      exact readPayment_none_iff.mp read
    | some q =>
      obtain ⟨r, row, built⟩ := readPayment_some_iff.mp read
      rw [← rows] at row
      exact ⟨some { q with psus := t'.psusOf i },
        readPayment_some_iff.mpr ⟨r, row, PaymentRow.withPsus_psus built _⟩, rfl⟩
  refine ⟨fun i => ?_, funext fun i => ?_⟩ <;> obtain ⟨y, read, same⟩ := reread i
  · exact ⟨y, read⟩
  · rw [payments_ledger read, same]

theorem consents_of_rows (rows : t'.consents = t.consents) :
    t'.ledger.consents = t.ledger.consents := by
  funext i
  simp only [ledger, readConsent, rows, Option.map_map]
  rfl

/-- The store became this one by an operation with this answer, as far as a ledger shows it. -/
structure Enters {α : Type} (t : TableStore) (op : Operation) (x : Except StoreError α)
    (t' : TableStore) : Prop where
  reads : t'.ReadsPayments
  ledger : t'.ledger = t.ledger.after true op x

structure KeepsLedger (t t' : TableStore) : Prop where
  reads : t'.ReadsPayments
  ledger : t'.ledger = t.ledger

theorem KeepsLedger.refl (h : t.ReadsPayments) : KeepsLedger t t := ⟨h, rfl⟩

theorem KeepsLedger.trans {t'' : TableStore} (h : KeepsLedger t t') (k : KeepsLedger t' t'') :
    KeepsLedger t t'' := ⟨k.reads, k.ledger.trans h.ledger⟩

theorem KeepsLedger.writing {α : Type} {x : Except StoreError α × TableStore}
    (h : t.ReadsPayments) (keeps : KeepsLedger t x.2) : KeepsLedger t (t.writing x).2 := by
  unfold TableStore.writing
  split
  · exact .refl h
  · exact keeps

theorem keepsLedger_insertAuthorisation (h : t.ReadsPayments) (d : Authorisation.Draft) :
    KeepsLedger t (t.insertAuthorisation d).2 := by
  unfold insertAuthorisation
  exact .writing h ⟨h, rfl⟩

theorem keepsLedger_putConsentStatus (h : t.ReadsPayments) (id : String) (st : Consent.Status) :
    KeepsLedger t (t.putConsentStatus id st).2 := by
  obtain ⟨-, -, payments, psus⟩ := t.putConsentStatus_frame id st
  refine ⟨fun i => ?_, Ledger.ext (funext fun i => ?_) (funext fun i => ?_) (funext fun _ => psus)⟩
  · rw [payments]
    exact h i
  · simp only [ledger, readConsent_putConsentStatus, Option.map_map]
    refine congrArg (fun f => Option.map f _) (funext fun c => ?_)
    by_cases here : i = id <;> simp [here, Consent.substance]
  · simp only [ledger, payments]

theorem ledger_writePayment (h : t.ReadsPayments) (id : String) (f : PaymentRow → PaymentRow)
    (g shown : Payment → Payment) (keeps : ∀ r, (f r).id = r.id)
    (follows : ∀ r psus q, r.withPsus psus = .ok q → (f r).withPsus psus = .ok (g q))
    (shows : ∀ q, (g q).substance = shown q.substance) :
    (t.writePayment id f).2.ReadsPayments ∧ (t.writePayment id f).2.ledger =
      { t.ledger with payments := fun i =>
          (t.ledger.payments i).map fun q => if i = id then shown q else q } := by
  obtain ⟨-, -, consents, psus⟩ := t.writePayment_frame id f
  have after {i : String} {x : Option Payment} (before : t.readPayment i = .ok x) :
      (t.writePayment id f).2.readPayment i = .ok (x.map fun q => if i = id then g q else q) :=
    readPayment_writePayment keeps follows before
  refine ⟨fun i => ?_, Ledger.ext (funext fun i => ?_) (funext fun i => ?_) (funext fun _ => psus)⟩ <;>
    obtain ⟨x, before⟩ := h i
  · exact ⟨_, after before⟩
  · exact congrArg (Option.map _) (congrFun consents i)
  · simp only [payments_ledger (after before), payments_ledger before, Option.map_map]
    refine congrArg (fun f => Option.map f x) (funext fun q => ?_)
    by_cases here : i = id <;> simp [here, shows]

theorem keepsLedger_putPaymentStatus (h : t.ReadsPayments) (id : String) (st : Payment.Status) :
    KeepsLedger t (t.putPaymentStatus id st).2 := by
  obtain ⟨reads, ledger⟩ := ledger_writePayment h id (fun r => { r with status := st })
    (fun q => { q with status := st }) (fun q => q) (fun _ => rfl)
    (fun _ _ _ built => PaymentRow.withPsus_status built st) (fun _ => rfl)
  refine ⟨reads, ledger.trans (Ledger.ext rfl (funext fun i => ?_) rfl)⟩
  simp

theorem keepsLedger_putParentStatus (h : t.ReadsPayments) {id : String} {st : Parent.Status}
    (put : t.putParentStatus id st = .ok t') : KeepsLedger t t' := by
  cases st with
  | consent st =>
    simp only [putParentStatus] at put
    have keeps := keepsLedger_putConsentStatus h id st
    split at put
    · next written =>
      cases put
      rwa [written] at keeps
    · cases put
  | payment st =>
    simp only [putParentStatus] at put
    have keeps := keepsLedger_putPaymentStatus h id st
    split at put
    · next written =>
      cases put
      rwa [written] at keeps
    · cases put

theorem keepsLedger_putOptionalStatus (h : t.ReadsPayments) {id : String}
    {reported : Option Parent.Status} (put : t.putOptionalStatus id reported = .ok t') :
    KeepsLedger t t' := by
  cases reported with
  | none =>
    cases put
    exact .refl h
  | some st => exact keepsLedger_putParentStatus h put

theorem keepsLedger_settleParent (h : t.ReadsPayments) {a : Authorisation}
    (settled : t.settleParent a = .ok t') : KeepsLedger t t' := by
  unfold settleParent at settled
  split at settled
  · obtain ⟨status, -, put⟩ := bind_eq_ok settled
    exact keepsLedger_putOptionalStatus h put
  · cases settled
    exact .refl h

theorem keepsLedger_modifyRow (h : t.ReadsPayments) (id : String)
    (f : AuthorisationRow → AuthorisationRow) : KeepsLedger t (t.modifyRow id f) := ⟨h, rfl⟩

theorem keepsLedger_transact (h : t.ReadsPayments) {id : String} {version : Int}
    {u : Authorisation.Update} {written : Authorisation}
    (transacted : t.transact id version u = .ok (written, t')) : KeepsLedger t t' := by
  obtain ⟨r, a, t₁, -, -, -, -, -, settled, put⟩ := transact_steps transacted
  have modified := keepsLedger_modifyRow h id fun r => r.apply u
  have settles := keepsLedger_settleParent modified.reads settled
  exact (modified.trans settles).trans (keepsLedger_putOptionalStatus settles.reads put)

theorem keepsLedger_updateAuthorisation (h : t.ReadsPayments) (id : String) (version : Int)
    (u : Authorisation.Update) : KeepsLedger t (t.updateAuthorisation id version u).2 := by
  unfold updateAuthorisation writing
  split
  · exact .refl h
  · split
    · next transacted => exact keepsLedger_transact h transacted
    · exact .refl h

theorem enters_insertConsent (h : t.ReadsPayments) (d : Consent.Draft) :
    t.Enters (.insertConsent d) (t.insertConsent d).1 (t.insertConsent d).2 := by
  unfold insertConsent writing
  split
  · exact ⟨h, rfl⟩
  · cases missing : t.readConsent d.id with
    | some c => exact ⟨h, rfl⟩
    | none =>
      have consents (i : String) :=
        readConsent_inserted (r := ConsentRow.ofDraft d) missing d.psus i
      let inserted : TableStore :=
        { t with consents := t.consents ++ [ConsentRow.ofDraft d] }.filePsus d.id d.psus
      have rows : inserted.payments = t.payments := rfl
      obtain ⟨reads, payments⟩ := payments_of_rows h rows
      refine ⟨reads, Ledger.ext (funext fun i => ?_) payments (funext fun p => funext fun i => ?_)⟩
      · refine (congrArg (Option.map _) (consents i)).trans ?_
        by_cases here : i = d.id
        · simp [Ledger.after_ok, Ledger.enter, Ledger.withConsent, here, ConsentRow.ofDraft,
            Consent.ofDraft, ConsentRow.withPsus, Consent.substance]
        · simp [Ledger.after_ok, Ledger.enter, Ledger.withConsent, here, ConsentRow.ofDraft,
            Consent.ofDraft, ledger]
      · refine (psusOf_filePsus_eq _ d.id d.psus i).trans ?_
        by_cases here : i = d.id <;>
          simp [Ledger.after_ok, Ledger.enter, Operation.filed, here, ledger, psusOf]

theorem enters_insertPayment (h : t.ReadsPayments) (q : Payment) :
    t.Enters (.insertPayment q) (t.insertPayment q).1 (t.insertPayment q).2 := by
  unfold insertPayment writing
  split
  · exact ⟨h, rfl⟩
  · obtain ⟨x, read⟩ := h q.id
    cases x with
    | some r =>
      rw [read]
      exact ⟨h, rfl⟩
    | none =>
      simp only [read, PaymentRow.withPsus_ofPayment]
      have built (psus : List Psu) : (PaymentRow.ofPayment q).withPsus psus =
          .ok { q with psus } := PaymentRow.withPsus_ofPayment { q with psus }
      have after (i : String) :
          ({ t with payments := t.payments ++ [PaymentRow.ofPayment q] }.filePsus q.id
            q.psus).readPayment i = if i = q.id then
              .ok (some { q with psus := t.psusOf i ++ q.psus }) else t.readPayment i := by
        refine (readPayment_inserted (r := PaymentRow.ofPayment q) read q.psus i).trans ?_
        rw [built]
        rfl
      refine ⟨fun i => ?_, Ledger.ext ?_ (funext fun i => ?_) (funext fun p => funext fun i => ?_)⟩
      · rw [after]
        split
        · exact ⟨_, rfl⟩
        · exact h i
      · exact consents_of_rows rfl
      · by_cases here : i = q.id
        · refine (payments_ledger ((after i).trans (if_pos here))).trans ?_
          simp [Ledger.after_ok, Ledger.enter, Ledger.withPayment, here, Payment.substance]
        · obtain ⟨x, before⟩ := h i
          refine (payments_ledger (((after i).trans (if_neg here)).trans before)).trans ?_
          simp [Ledger.after_ok, Ledger.enter, Ledger.withPayment, here, payments_ledger before]
      · refine (psusOf_filePsus_eq _ q.id q.psus i).trans ?_
        by_cases here : i = q.id <;>
          simp [Ledger.after_ok, Ledger.enter, Operation.filed, here, ledger, psusOf]

theorem enters_saveOrder (h : t.ReadsPayments) (id : String) (order : Order) :
    t.Enters (.saveOrder id order) (t.saveOrder id order).1 (t.saveOrder id order).2 := by
  unfold saveOrder writing
  split
  · exact ⟨h, rfl⟩
  · obtain ⟨x, read⟩ := h id
    cases x with
    | none =>
      rw [writePayment_missing read]
      exact ⟨h, rfl⟩
    | some q =>
      have follows (r : PaymentRow) (psus : List Psu) (q : Payment)
          (built : r.withPsus psus = .ok q) := PaymentRow.withPsus_order built order
      obtain ⟨reads, ledger⟩ := ledger_writePayment h id
        (fun r => { r with order := some order.toJson.write }) (fun q => { q with order := some order })
        (fun q => { q with order := some order }) (fun _ => rfl) follows fun _ => rfl
      rw [writePayment_found follows read]
      refine ⟨reads, ledger.trans (Ledger.ext rfl rfl (funext fun p => funext fun i => ?_))⟩
      simp [Ledger.after_ok, Ledger.enter, Operation.filed]

/-- What the store enters of an operation depends on the answer alone. -/
theorem enters_perform (h : t.ReadsPayments) (op : Operation) :
    t.Enters op (op.perform t).1 (op.perform t).2 := by
  have silent {α : Type} (x : Except StoreError α) {t' : TableStore} (keeps : KeepsLedger t t')
      (consents : (t.ledger.enter true op).consents = t.ledger.consents)
      (payments : (t.ledger.enter true op).payments = t.ledger.payments)
      (filed : ∀ p i, op.filed true p i = []) : t.Enters op x t' :=
    ⟨keeps.reads, keeps.ledger.trans (Ledger.after_silent x consents payments filed).symm⟩
  have replied {α : Type} {x : Except StoreError α} {t' : TableStore} (enters : t.Enters op x t')
      (reply : α → Reply) : t.Enters op (x.map reply) t' :=
    ⟨enters.reads, enters.ledger.trans (Ledger.after_map x reply).symm⟩
  cases op with
  | authorisation | authorisationsOf | consent | payment =>
    exact silent _ (.refl h) rfl rfl fun _ _ => rfl
  | insertAuthorisation d =>
    exact silent _ (keepsLedger_insertAuthorisation h d) rfl rfl fun _ _ => rfl
  | updateAuthorisation id version u =>
    exact silent _ (keepsLedger_updateAuthorisation h id version u) rfl rfl fun _ _ => rfl
  | insertConsent d => exact replied (enters_insertConsent h d) _
  | setConsentStatus id st =>
    exact silent _ (.writing h (keepsLedger_putConsentStatus h id st)) rfl rfl fun _ _ => rfl
  | insertPayment q => exact replied (enters_insertPayment h q) _
  | saveOrder id order => exact replied (enters_saveOrder h id order) _
  | setPaymentStatus id st =>
    exact silent _ (.writing h (keepsLedger_putPaymentStatus h id st)) rfl rfl fun _ _ => rfl

end TableStore

end StrongAuth
