import StrongAuth.Proofs.Store.Transactions
import StrongAuth.Samples

set_option autoImplicit false

/-!
# What a refused operation leaves behind

An operation that is answered by an error leaves every record as it was, with one exception. The
tables write the status of a payment before they read the row, and outside of a transaction. If the
row cannot be read, the answer is an error and the status has changed. The rows have no `updated_at`
here, so a row that was given the status it had already counts as kept.
-/
namespace StrongAuth
open StrongAuth.Store

namespace Store

theorem error_of_map {ε α β : Type} {x : Except ε α} {f : α → β} {e : ε}
    (h : x.map f = .error e) : x = .error e := by
  cases x with
  | error e' => exact congrArg Except.error (Except.error.inj h)
  | ok a => cases h

theorem error_of_replying {α σ : Type} {reply : α → Reply} {written : Except StoreError α × σ}
    {e : StoreError} (h : (replying reply written).1 = .error e) : written = (.error e, written.2) :=
  Prod.ext (error_of_map h) rfl

end Store

namespace MemoryStore

variable {s t : MemoryStore} {e : StoreError}

theorem insertConsent_error {d : Consent.Draft} (h : s.insertConsent d = (.error e, t)) : t = s := by
  unfold insertConsent at h
  split at h <;> cases h
  rfl

theorem insertPayment_error {q : Payment} (h : s.insertPayment q = (.error e, t)) : t = s := by
  unfold insertPayment at h
  split at h <;> cases h
  rfl

theorem setConsentStatus_error {id : String} {status : Consent.Status}
    (h : s.setConsentStatus id status = (.error e, t)) : t = s := by
  unfold setConsentStatus at h
  split at h <;> cases h
  rfl

theorem setPaymentStatus_error {id : String} {status : Payment.Status}
    (h : s.setPaymentStatus id status = (.error e, t)) : t = s := by
  unfold setPaymentStatus at h
  split at h <;> cases h
  rfl

theorem saveOrder_error {id : String} {order : Order} (h : s.saveOrder id order = (.error e, t)) :
    t = s := by
  unfold saveOrder at h
  split at h <;> cases h
  rfl

end MemoryStore

namespace TableStore

variable {s t : TableStore} {e : StoreError}

theorem insertConsent_error {d : Consent.Draft} (h : s.insertConsent d = (.error e, t)) : t = s := by
  unfold insertConsent writing at h
  split at h
  · cases h
    rfl
  · split at h <;> cases h
    rfl

theorem insertPayment_error {q : Payment} (h : s.insertPayment q = (.error e, t)) : t = s := by
  unfold insertPayment writing at h
  split at h
  · cases h
    rfl
  · split at h
    · cases h
      rfl
    · cases h
      rfl
    · dsimp only at h
      split at h <;> cases h
      rfl

theorem setConsentStatus_error {id : String} {status : Consent.Status}
    (h : s.writing (s.putConsentStatus id status) = (.error e, t)) : t = s := by
  unfold writing putConsentStatus writeConsent at h
  split at h
  · cases h
    rfl
  · split at h <;> cases h
    rfl

/-- An order is written so that it can be read, so the row can be read whatever was there before. -/
theorem saveOrder_error {id : String} {order : Order} (h : s.saveOrder id order = (.error e, t)) :
    t = s := by
  unfold saveOrder writing writePayment at h
  split at h
  · cases h
    rfl
  · split at h
    · cases h
      rfl
    · next r row =>
      obtain ⟨refused, -⟩ := Prod.mk.inj h
      rw [PaymentRow.withPsus] at refused
      simp only [optionalColumn, column_order] at refused
      cases refused

theorem column_error {α : Type} {ofJson? : Json → Option α} {text : String}
    (h : column ofJson? text = .error e) : e = unreadable := by
  unfold column at h
  split at h <;> cases h
  rfl

theorem withPsus_error {r : PaymentRow} {psus : List Psu} (h : r.withPsus psus = .error e) :
    e = unreadable := by
  unfold PaymentRow.withPsus at h
  cases column : r.order with
  | none =>
    rw [column] at h
    cases h
  | some text =>
    rw [column, optionalColumn] at h
    cases read : TableStore.column Order.ofJson? text with
    | error e' =>
      rw [read] at h
      cases h
      exact column_error read
    | ok o =>
      rw [read] at h
      cases h

theorem readPayment_error {id : String} (h : s.readPayment id = .error e) : e = unreadable := by
  unfold readPayment at h
  split at h
  · cases h
  · exact withPsus_error (error_of_map h)

theorem restate_payment_eq_self_iff {id : String} {status : Payment.Status} :
    s.restate id (some (.payment status)) = s ↔ ∀ r ∈ s.payments, r.id = id → r.status = status := by
  rw [restate_payment]
  constructor
  · intro same r there here
    have payments := congrArg TableStore.payments same
    have row := (List.map_inj_left.mp (payments.trans (List.map_id _).symm)) r there
    rw [if_pos (beq_iff_eq.mpr here)] at row
    exact (congrArg PaymentRow.status row).symm
  · intro same
    rw [rewritten_eq_self PaymentRow.id _ s.payments id fun r there here => ?_]
    rw [← same r there here]

/-- The status of a payment that cannot be read is written all the same. -/
theorem setPaymentStatus_unreadable (opened : s.isClosed = false) {id : String}
    (read : s.readPayment id = .error unreadable) (status : Payment.Status) :
    s.writing (s.putPaymentStatus id status) =
      (.error unreadable, s.restate id (some (.payment status))) := by
  rw [writing_of_open opened, restate_payment]
  unfold readPayment at read
  split at read
  · cases read
  · next r row =>
    have reread : { r with status }.withPsus (s.psusOf id) = .error unreadable := by
      rw [PaymentRow.withPsus_status_eq, error_of_map read]
      rfl
    rw [putPaymentStatus, writePayment, row]
    exact Prod.ext reread rfl

theorem setPaymentStatus_error {id : String} {status : Payment.Status}
    (h : s.writing (s.putPaymentStatus id status) = (.error e, t))
    (readable : s.isClosed = false → s.readPayment id ≠ .error unreadable) : t = s := by
  cases closed : s.isClosed with
  | true =>
    rw [writing, if_pos closed] at h
    exact (Prod.mk.inj h).2.symm
  | false =>
    rw [writing_of_open closed] at h
    cases read : s.readPayment id with
    | error e' =>
      obtain rfl := readPayment_error read
      exact absurd read (readable closed)
    | ok found =>
      cases found with
      | none =>
        rw [putPaymentStatus, writePayment_missing read] at h
        exact (Prod.mk.inj h).2.symm
      | some q =>
        have accepted : (s.putPaymentStatus id status).1 = .ok { q with status } :=
          writePayment_found (f := fun r => { r with status }) (g := fun q => { q with status })
            (fun _ _ _ built => PaymentRow.withPsus_status built status) read
        rw [h] at accepted
        cases accepted

end TableStore

namespace Backend

variable {b : Backend} {op : Operation} {e : StoreError}

/-- Another status is to be written to a payment that cannot be read. -/
def RestatesUnreadable : Backend → Operation → Prop
  | .tables s, .setPaymentStatus id status => s.isClosed = false ∧
      s.readPayment id = .error TableStore.unreadable ∧
      ∃ r ∈ s.payments, r.id = id ∧ r.status ≠ status
  | _, _ => False

theorem sameRecords_of_error {α : Type} {memory : MemoryStore → Except StoreError α × MemoryStore}
    {tables : TableStore → Except StoreError α × TableStore} {reply : α → Reply}
    (refused : (replying reply (b.onWrite memory tables)).1 = .error e)
    (inMemory : ∀ s t, b = .memory s → memory s = (.error e, t) → t = s)
    (inTables : ∀ s t, b = .tables s → tables s = (.error e, t) → t = s) :
    SameRecords b (replying reply (b.onWrite memory tables)).2 := by
  have answered := error_of_replying refused
  change SameRecords b (b.onWrite memory tables).2
  cases b with
  | memory s =>
    obtain ⟨t, after, inner⟩ := onWrite_memory answered
    rw [after, inMemory s t rfl inner]
    exact .refl _
  | tables s =>
    obtain ⟨t, after, inner⟩ := onWrite_tables answered
    rw [after, inTables s t rfl inner]
    exact .refl _

theorem sameRecords_of_refused (refused : (op.perform b).1 = .error e)
    (kept : ¬b.RestatesUnreadable op) : SameRecords b (op.perform b).2 := by
  cases op with
  | authorisation | authorisationsOf | consent | payment => exact .refl b
  | updateAuthorisation id version u =>
    exact updateAuthorisation_refused (error_of_replying refused)
  | insertAuthorisation d =>
    refine sameRecords_of_error refused (fun s t _ inner => ?_)
      fun s t _ inner => TableStore.insertAuthorisation_error inner
    cases inner
  | insertConsent d =>
    exact sameRecords_of_error refused (fun _ _ _ inner => MemoryStore.insertConsent_error inner)
      fun _ _ _ inner => TableStore.insertConsent_error inner
  | setConsentStatus id status =>
    exact sameRecords_of_error refused (fun _ _ _ inner => MemoryStore.setConsentStatus_error inner)
      fun _ _ _ inner => TableStore.setConsentStatus_error inner
  | insertPayment q =>
    exact sameRecords_of_error refused (fun _ _ _ inner => MemoryStore.insertPayment_error inner)
      fun _ _ _ inner => TableStore.insertPayment_error inner
  | saveOrder id order =>
    exact sameRecords_of_error refused (fun _ _ _ inner => MemoryStore.saveOrder_error inner)
      fun _ _ _ inner => TableStore.saveOrder_error inner
  | setPaymentStatus id status =>
    refine sameRecords_of_error refused
      (fun _ _ _ inner => MemoryStore.setPaymentStatus_error inner) fun s t tables inner => ?_
    subst tables
    by_cases lost : s.isClosed = false ∧ s.readPayment id = .error TableStore.unreadable
    · obtain ⟨opened, read⟩ := lost
      have same : ∀ r ∈ s.payments, r.id = id → r.status = status := fun r there here =>
        Decidable.not_not.mp fun other => kept ⟨opened, read, r, there, here, other⟩
      have wrote := inner.symm.trans (TableStore.setPaymentStatus_unreadable opened read status)
      rw [(Prod.mk.inj wrote).2]
      exact TableStore.restate_payment_eq_self_iff.mpr same
    · exact TableStore.setPaymentStatus_error inner fun opened read => lost ⟨opened, read⟩

theorem perform_of_restatesUnreadable {s : TableStore} {id : String} {status : Payment.Status}
    (lost : (Backend.tables s).RestatesUnreadable (.setPaymentStatus id status)) :
    (Operation.setPaymentStatus id status).perform (Backend.tables s) =
      (.error TableStore.unreadable, .tables (s.restate id (some (.payment status)))) := by
  obtain ⟨opened, read, -⟩ := lost
  have wrote := TableStore.setPaymentStatus_unreadable opened read status
  change (Except.map _ (s.writing _).1, Backend.tables (s.writing _).2) = _
  rw [wrote]
  rfl

theorem not_sameRecords_of_restatesUnreadable {s : TableStore} {id : String}
    {status : Payment.Status}
    (lost : (Backend.tables s).RestatesUnreadable (.setPaymentStatus id status)) :
    ¬SameRecords (.tables s) (.tables (s.restate id (some (.payment status)))) := by
  obtain ⟨-, -, r, there, here, other⟩ := lost
  intro same
  exact other (TableStore.restate_payment_eq_self_iff.mp same r there here)

/-- An operation that is answered by an error leaves every record as it was, unless it is to write
another status to a payment that cannot be read. Such a payment has the new status afterwards. -/
theorem refused_keeps_records_iff (b : Backend) (op : Operation) :
    ((∀ e, (op.perform b).1 = .error e → SameRecords b (op.perform b).2) ↔ ¬b.RestatesUnreadable op) ∧
      ∀ s id status, b = .tables s → op = .setPaymentStatus id status → b.RestatesUnreadable op →
        op.perform b = (.error TableStore.unreadable,
          .tables (s.restate id (some (.payment status)))) := by
  refine ⟨⟨fun kept lost => ?_, fun kept e refused => sameRecords_of_refused refused kept⟩, ?_⟩
  · cases b with
    | memory s => exact lost
    | tables s =>
      cases op with
      | setPaymentStatus id status =>
        have performed := perform_of_restatesUnreadable lost
        have same := kept TableStore.unreadable (congrArg Prod.fst performed)
        rw [performed] at same
        exact not_sameRecords_of_restatesUnreadable lost same
      | _ => exact lost
  · rintro s id status rfl rfl lost
    exact perform_of_restatesUnreadable lost

theorem unreadable_payment_restated :
    ((Operation.setPaymentStatus "payment" .acsc).perform Samples.damaged).1 =
        .error TableStore.unreadable ∧
      ¬SameRecords Samples.damaged
        ((Operation.setPaymentStatus "payment" .acsc).perform Samples.damaged).2 := by
  refine ⟨rfl, fun same => ?_⟩
  have statuses := congrArg (fun s : TableStore => s.payments.map PaymentRow.status) same
  exact nomatch (statuses : [Payment.Status.acsc] = [Payment.Status.rcvd])

end Backend

end StrongAuth
