import StrongAuth.Proofs.Store.Settling
import StrongAuth.Samples

set_option autoImplicit false

namespace StrongAuth
open StrongAuth.Store

def Consent.restated (c : Consent) : Option Parent.Status → Consent
  | some (.consent status) => { c with status }
  | _ => c

def Payment.restated (q : Payment) : Option Parent.Status → Payment
  | some (.payment status) => { q with status }
  | _ => q

def ConsentRow.restated (r : ConsentRow) : Option Parent.Status → ConsentRow
  | some (.consent status) => { r with status }
  | _ => r

def PaymentRow.restated (r : PaymentRow) : Option Parent.Status → PaymentRow
  | some (.payment status) => { r with status }
  | _ => r

namespace MemoryStore

variable {s t : MemoryStore} {id : String} {version : Int} {u : Authorisation.Update}
  {a written : Authorisation}

def restate (s : MemoryStore) (id : String) (st : Option Parent.Status) : MemoryStore :=
  { s with
    consents := s.consents.map fun c => if c.id == id then c.restated st else c
    payments := s.payments.map fun q => if q.id == id then q.restated st else q }

def uncounted (s : MemoryStore) : MemoryStore := { s with writes := {} }

theorem restate_eq (s : MemoryStore) {st : Option Parent.Status} {consents : List Consent}
    {payments : List Payment}
    (hc : (s.consents.map fun c => if c.id == id then c.restated st else c) = consents)
    (hp : (s.payments.map fun q => if q.id == id then q.restated st else q) = payments) :
    s.restate id st = { s with consents, payments } := by
  rw [restate, hc, hp]

theorem restate_none (s : MemoryStore) (id : String) : s.restate id none = s :=
  s.restate_eq (rewritten_eq_self Consent.id _ _ _ fun _ _ _ => rfl)
    (rewritten_eq_self Payment.id _ _ _ fun _ _ _ => rfl)

theorem restate_consent (s : MemoryStore) (id : String) (st : Consent.Status) :
    s.restate id (some (.consent st)) = { s with
      consents := s.consents.map fun c => if c.id == id then { c with status := st } else c } :=
  s.restate_eq rfl (rewritten_eq_self Payment.id _ _ _ fun _ _ _ => rfl)

theorem restate_payment (s : MemoryStore) (id : String) (st : Payment.Status) :
    s.restate id (some (.payment st)) = { s with
      payments := s.payments.map fun q => if q.id == id then { q with status := st } else q } :=
  s.restate_eq (rewritten_eq_self Consent.id _ _ _ fun _ _ _ => rfl) rfl

theorem putParentStatus_eq (s : MemoryStore) (id : String) (st : Parent.Status) :
    (s.putParentStatus id st).uncounted = s.uncounted.restate id (some st) := by
  cases st with
  | consent st =>
    rw [restate_consent]
    simp only [putParentStatus, putConsentStatus, findConsent, uncounted]
    split
    · next absent => rw [rewritten_of_absent Consent.id _ absent]
    · rfl
  | payment st =>
    rw [restate_payment]
    simp only [putParentStatus, putPaymentStatus, findPayment, uncounted]
    split
    · next absent => rw [rewritten_of_absent Payment.id _ absent]
    · rfl

theorem settleParent_eq (s : MemoryStore) (a : Authorisation) :
    ∃ due, Due s.summary? s.psusOf s.authorisations a due ∧
      (s.settleParent a).uncounted = s.uncounted.restate a.parentId due := by
  refine ⟨_, s.due_of_update a, ?_⟩
  unfold settleParent
  split
  · next st due =>
    rw [due]
    exact s.putParentStatus_eq a.parentId st
  · next due =>
    rw [due, restate_none]

theorem writeUpdate_steps (s : MemoryStore) (a : Authorisation) (u : Authorisation.Update) :
    ∃ due, Due s.summary? s.psusOf (s.writeUpdate a u).2.authorisations (a.apply u) due ∧
      (s.writeUpdate a u).2.uncounted =
        (((s.modifyAuthorisation a.id fun _ => a.apply u).restate a.parentId due).restate a.parentId
          u.parentStatus).uncounted := by
  obtain ⟨due, follows, settled⟩ := settleParent_eq
    { s.modifyAuthorisation a.id fun _ => a.apply u with
      writes := { s.writes with authorisationUpdates := s.writes.authorisationUpdates + 1 } }
    (a.apply u)
  refine ⟨due, ?_, ?_⟩
  · rw [(s.sameLookups_writeUpdate a u).1]
    exact follows
  · have advanced : (s.advanced a u).uncounted =
        ((s.modifyAuthorisation a.id fun _ => a.apply u).restate a.parentId due).uncounted := settled
    rw [writeUpdate_eq]
    cases u.parentStatus with
    | none =>
      rw [restate_none]
      exact advanced
    | some st =>
      refine ((s.advanced a u).putParentStatus_eq a.parentId st).trans ?_
      rw [advanced]
      rfl

end MemoryStore

namespace TableStore

variable {s t : TableStore} {id : String} {version : Int} {u : Authorisation.Update}
  {a written : Authorisation}

def restate (s : TableStore) (id : String) (st : Option Parent.Status) : TableStore :=
  { s with
    consents := s.consents.map fun r => if r.id == id then r.restated st else r
    payments := s.payments.map fun r => if r.id == id then r.restated st else r }

theorem restate_eq (s : TableStore) {st : Option Parent.Status} {consents : List ConsentRow}
    {payments : List PaymentRow}
    (hc : (s.consents.map fun r => if r.id == id then r.restated st else r) = consents)
    (hp : (s.payments.map fun r => if r.id == id then r.restated st else r) = payments) :
    s.restate id st = { s with consents, payments } := by
  rw [restate, hc, hp]

theorem restate_none (s : TableStore) (id : String) : s.restate id none = s :=
  s.restate_eq (rewritten_eq_self ConsentRow.id _ _ _ fun _ _ _ => rfl)
    (rewritten_eq_self PaymentRow.id _ _ _ fun _ _ _ => rfl)

theorem restate_consent (s : TableStore) (id : String) (st : Consent.Status) :
    s.restate id (some (.consent st)) = { s with
      consents := s.consents.map fun r => if r.id == id then { r with status := st } else r } :=
  s.restate_eq rfl (rewritten_eq_self PaymentRow.id _ _ _ fun _ _ _ => rfl)

theorem restate_payment (s : TableStore) (id : String) (st : Payment.Status) :
    s.restate id (some (.payment st)) = { s with
      payments := s.payments.map fun r => if r.id == id then { r with status := st } else r } :=
  s.restate_eq (rewritten_eq_self ConsentRow.id _ _ _ fun _ _ _ => rfl) rfl

theorem putParentStatus_eq {st : Parent.Status} (h : s.putParentStatus id st = .ok t) :
    t = s.restate id (some st) := by
  cases st with
  | consent st =>
    simp only [putParentStatus, putConsentStatus, writeConsent] at h
    split at h
    · next wrote =>
      split at wrote
      · cases wrote
      · obtain ⟨-, rfl⟩ := Prod.mk.inj wrote
        cases h
        exact (s.restate_consent id st).symm
    · cases h
  | payment st =>
    simp only [putParentStatus, putPaymentStatus, writePayment] at h
    split at h
    · next wrote =>
      split at wrote
      · cases wrote
      · obtain ⟨-, rfl⟩ := Prod.mk.inj wrote
        cases h
        exact (s.restate_payment id st).symm
    · cases h

theorem putOptionalStatus_eq {st : Option Parent.Status}
    (h : s.putOptionalStatus id st = .ok t) : t = s.restate id st := by
  cases st with
  | none =>
    cases h
    exact (s.restate_none id).symm
  | some st => exact putParentStatus_eq h

theorem labels_of_readable {rows : List AuthorisationRow} (h : ∀ r ∈ rows, ∃ a, r.read = .ok a) :
    (rows.filterMap fun r => r.read.toOption).map Authorisation.label =
      rows.map AuthorisationRow.label := by
  induction rows with
  | nil => rfl
  | cons r rows ih =>
    obtain ⟨a, read⟩ := h r List.mem_cons_self
    have others := ih fun q hq => h q (List.mem_cons_of_mem _ hq)
    rw [List.filterMap_cons_some (by rw [read]; rfl), List.map_cons, List.map_cons, others,
      label_of_read read]

theorem siblings_of_statusByProgress {due : Option Parent.Status}
    (h : s.statusByProgress a = .ok due) (settles : a.purpose ≠ .cancellation)
    (there : s.summary? a.purpose a.parentId ≠ none) :
    ∃ l, s.readSiblings a.parentId a.purpose = .ok l := by
  unfold statusByProgress at h
  cases kind : a.purpose with
  | account =>
    simp only [kind] at h there
    split at h
    · next missing =>
      have none : (s.consents.find? fun r => r.id == a.parentId) = none :=
        Option.map_eq_none_iff.mp missing
      simp [summary?, Purpose.isPayment, none] at there
    · obtain ⟨l, read, -⟩ := bind_eq_ok h
      exact ⟨l, read⟩
  | initiation =>
    simp only [kind] at h there
    obtain ⟨found, read, h⟩ := bind_eq_ok h
    split at h
    · simp [summary?, Purpose.isPayment, readPayment_none_iff.mp read] at there
    · obtain ⟨l, read, -⟩ := bind_eq_ok h
      exact ⟨l, read⟩
  | cancellation => exact absurd kind settles

theorem settleParent_eq (h : s.settleParent a = .ok t) :
    ∃ due, Due s.summary? (fun _ => s.psusOf) s.records a due ∧ t = s.restate a.parentId due ∧
      (a.status.isGranted = true → a.purpose ≠ .cancellation →
        s.summary? a.purpose a.parentId ≠ none →
          ∃ l, s.readSiblings a.parentId a.purpose = .ok l) := by
  unfold settleParent at h
  split at h
  · next granted =>
    obtain ⟨due, progress, put⟩ := bind_eq_ok h
    exact ⟨due, due_of_granted granted progress, putOptionalStatus_eq put,
      fun _ => siblings_of_statusByProgress progress⟩
  · next ungranted =>
    cases h
    exact ⟨none, .ungranted (Bool.eq_false_iff.mpr ungranted), (s.restate_none _).symm,
      fun granted => absurd granted ungranted⟩

theorem label_siblings (s : TableStore) (i : String) (p : Purpose) :
    (s.authorisations.filter fun r => r.parentId == i && r.purpose == p).map AuthorisationRow.label =
      (s.authorisations.map AuthorisationRow.label).filter fun l =>
        l.parentId == i && l.purpose == p := by
  rw [List.filter_map]
  rfl

theorem transact_writes (wrote : s.transact id version u = .ok (written, t)) :
    ∃ a due, s.readAuthorisation id = .ok (some a) ∧ writeConflict a version = none ∧
      written = a.apply u ∧ Due s.summary? (fun _ => s.psusOf) t.records written due ∧
      t = ((s.modifyRow id fun r => r.apply u).restate a.parentId due).restate a.parentId
        u.parentStatus ∧
      (written.status.isGranted = true → written.purpose ≠ .cancellation →
        s.summary? written.purpose written.parentId ≠ none →
          ∃ l, t.readSiblings written.parentId written.purpose = .ok l) := by
  obtain ⟨r, a, s₁, row, read, free, reread, rfl, settled, put⟩ := transact_steps wrote
  obtain ⟨due, follows, rfl, reads⟩ := settleParent_eq settled
  have found : s.readAuthorisation id = .ok (some a) := by
    rw [readAuthorisation, row]
    exact congrArg (Except.map some) read
  obtain rfl := putOptionalStatus_eq put
  exact ⟨a, due, found, free, rfl, follows, rfl, reads⟩

end TableStore

namespace Backend

variable {s t : Backend} {id : String} {version : Int} {u : Authorisation.Update}
  {a written : Authorisation}

/-- What an update writes: first the authorisation, then the status that is due to its parent, and
then the one that was reported. Everything else is as it was, but for the counts of writes. -/
inductive Applies (a : Authorisation) (u : Authorisation.Update) (due : Option Parent.Status) :
    Backend → Backend → Prop where
  | memory {s t : MemoryStore} (writes : t.uncounted =
      (((s.modifyAuthorisation a.id fun _ => a.apply u).restate a.parentId due).restate a.parentId
        u.parentStatus).uncounted) : Applies a u due (.memory s) (.memory t)
  | tables {s t : TableStore} (writes : t =
      ((s.modifyRow a.id fun r => r.apply u).restate a.parentId due).restate a.parentId
        u.parentStatus) : Applies a u due (.tables s) (.tables t)

/-- The status that is due to the parent of this authorisation follows from the progress of all
authorisations of the parent and purpose, none of which escapes notice. -/
structure Settles (s t : Backend) (written : Authorisation) (due : Option Parent.Status) : Prop where
  due : Due s.summary? s.psusOf t.records written due
  all : written.status.isGranted = true → written.purpose ≠ .cancellation →
    s.summary? written.purpose written.parentId ≠ none →
      (t.siblings written.parentId written.purpose).map Authorisation.label =
        t.labels.filter fun l => l.parentId == written.parentId && l.purpose == written.purpose

theorem updateAuthorisation_refused {e : StoreError}
    (refused : Store.updateAuthorisation s id version u = (.error e, t)) : SameRecords s t := by
  cases s with
  | memory m =>
    obtain ⟨m', rfl, inner⟩ := onWrite_memory refused
    rcases MemoryStore.updateAuthorisation_refused inner with rfl | ⟨-, rfl⟩ | ⟨-, rfl⟩ <;>
      exact ⟨rfl, rfl, rfl⟩
  | tables m =>
    obtain ⟨m', rfl, inner⟩ := onWrite_tables refused
    exact TableStore.updateAuthorisation_error inner

theorem updateAuthorisation_applies
    (wrote : Store.updateAuthorisation s id version u = (.ok written, t)) :
    ∃ a due, s.authorisation? id = some a ∧ writeConflict a version = none ∧ written = a.apply u ∧
      t.authorisation? id = some written ∧ s.Applies a u due t ∧ s.Settles t written due := by
  cases s with
  | memory m =>
    obtain ⟨m', rfl, inner⟩ := onWrite_memory wrote
    obtain ⟨a, found, free, -, after⟩ := MemoryStore.updateAuthorisation_steps inner
    obtain ⟨-, there, -⟩ := MemoryStore.updateAuthorisation_found found inner
    obtain ⟨due, follows, writes⟩ := m.writeUpdate_steps a u
    rw [after] at follows writes
    have result : written = a.apply u := by
      rw [MemoryStore.writeUpdate_eq] at after
      exact (Prod.mk.inj after).1.symm
    subst result
    refine ⟨a, due, found, free, rfl, there, .memory writes, follows, fun _ _ _ => ?_⟩
    change _ = List.filter _ (m'.authorisations.map Authorisation.label)
    rw [List.filter_map]
    rfl
  | tables m =>
    obtain ⟨m', rfl, inner⟩ := onWrite_tables wrote
    have transacted := TableStore.transact_of_updateAuthorisation inner
    obtain ⟨a, due, found, free, rfl, follows, writes, reads⟩ :=
      TableStore.transact_writes transacted
    obtain ⟨-, there, -⟩ := TableStore.transact_found found transacted
    have here := authorisation?_of_read found
    have named : a.id = id := id_of_authorisation? here
    rw [← named] at writes
    refine ⟨a, due, here, free, rfl, authorisation?_of_read there, .tables writes, follows,
      fun granted settles parent => ?_⟩
    have readable := TableStore.exists_readSiblings_iff.mp (reads granted settles parent)
    change List.map _ (m'.records.filter _) = _
    rw [← m'.records_siblings, TableStore.labels_of_readable fun r hr => ?_]
    · exact m'.label_siblings _ _
    · obtain ⟨there, sibling⟩ := List.mem_filter.mp hr
      exact readable r there sibling

/-- An update is all or nothing, whatever the store holds. When it is refused every record is as it
was. When it is accepted the authorisation was open at the version that was quoted, and has the next
version. The parent of an authorisation that is granted, unless this cancels a payment, first takes
the status that follows from its progress, and then the status that was reported. -/
theorem update_all_or_nothing (b : Backend) (id : String) (version : Int)
    (u : Authorisation.Update) :
    match Store.updateAuthorisation b id version u with
    | (.error _, after) => SameRecords b after
    | (.ok written, after) => ∃ a due, b.authorisation? id = some a ∧ a.status.isTerminal = false ∧
        a.version = version ∧ written = a.apply u ∧ written.version = version + 1 ∧
        after.authorisation? id = some written ∧ b.Applies a u due after ∧
        b.Settles after written due := by
  cases answered : Store.updateAuthorisation b id version u with
  | mk answer after =>
    cases answer with
    | error e => exact updateAuthorisation_refused answered
    | ok written =>
      obtain ⟨a, due, found, free, rfl, there, applies, settles⟩ :=
        updateAuthorisation_applies answered
      obtain ⟨live, rfl⟩ := writeConflict_eq_none_iff.mp free
      exact ⟨a, due, found, live, rfl, rfl, a.apply_version u, there, applies, settles⟩

/-- A granted initiation takes its payment from `RCVD` to the status that follows from its progress,
and the status that the bank reports takes the place of this one. -/
theorem grant_restates_payment :
    let a := Samples.granted "auth1" "anna"
    let b : Backend := .memory {
      payments := [Samples.payment "payment" ["anna"] false]
      authorisations := [{ a with status := .started }] }
    let grant (reported : Option Parent.Status) : Authorisation.Update :=
      { status := .finalised, parentStatus := reported }
    b.summary? .initiation "payment" = some ⟨.payment .rcvd, false⟩ ∧
      (∃ written due after, Store.updateAuthorisation b "auth1" 0 (grant none) = (.ok written, after) ∧
        b.Settles after written due ∧
        after.summary? .initiation "payment" = some ⟨.payment .actc, false⟩) ∧
      ∃ written due after, Store.updateAuthorisation b "auth1" 0 (grant (some (.payment .accp))) =
          (.ok written, after) ∧ b.Settles after written due ∧
        after.summary? .initiation "payment" = some ⟨.payment .accp, false⟩ := by
  intro a b grant
  obtain ⟨_, due, -, -, -, -, -, -, -, settles⟩ := update_all_or_nothing b "auth1" 0 (grant none)
  obtain ⟨_, due', -, -, -, -, -, -, -, settles'⟩ :=
    update_all_or_nothing b "auth1" 0 (grant (some (.payment .accp)))
  exact ⟨rfl, ⟨_, due, _, rfl, settles, rfl⟩, _, due', _, rfl, settles', rfl⟩

end Backend

end StrongAuth
