import StrongAuth.Proofs.Store.Backend
import StrongAuth.Proofs.Store.Ledger

set_option autoImplicit false

/-!
# What operations do to a store

An operation that is refused leaves its mark nowhere. One that is accepted enrols an authorisation,
rewrites one, or is entered in the ledger, and which of them it does can be told from the operation.
So what a store holds after any number of operations follows from those that it accepted.
-/
namespace StrongAuth

namespace Store

/-- The authorisations after an operation that is accepted. A new one gets the id. -/
def Operation.enrol (id : String) : Operation → List Authorisation → List Authorisation
  | insertAuthorisation d, l => l ++ [.ofDraft id d]
  | updateAuthorisation id _ u, l => l.map fun a => if a.id == id then a.apply u else a
  | _, l => l

theorem exists_of_isOk {ε α : Type} {x : Except ε α} (h : x.isOk = true) : ∃ a, x = .ok a := by
  cases x with
  | error e => cases h
  | ok a => exact ⟨a, rfl⟩

theorem isOk_map {ε α β : Type} (x : Except ε α) (f : α → β) : (x.map f).isOk = x.isOk := by
  cases x <;> rfl

theorem Rewrites.eq_enrol {id : String} {version : Int} {u : Authorisation.Update}
    {written : Authorisation} {before after : List Authorisation}
    (h : Rewrites id version u written before after) (distinct : Distinct before)
    (new : String) : after = (Operation.updateAuthorisation id version u).enrol new before := by
  obtain ⟨n, a, there, rfl, -, rfl, rfl⟩ := h
  exact (rewritten_eq_set Authorisation.id (fun b => b.apply u) there fun _ _ hb same =>
    distinct.unique hb there same).symm

end Store

namespace TableStore
open StrongAuth.Store

variable {t t' : TableStore}

theorem hasParent_payments {i : String} {x : Option Payment} (read : t.readPayment i = .ok x)
    (st : Payment.Status) : t.ledger.hasParent i (.payment st) = x.isSome := by
  simp [Ledger.hasParent, payments_ledger read]

theorem putParentStatus_isOk (reads : t.ReadsPayments) (id : String) (st : Parent.Status) :
    (t.putParentStatus id st).isOk = t.ledger.hasParent id st := by
  cases st with
  | consent st =>
    cases read : t.readConsent id with
    | none =>
      simp only [putParentStatus, putConsentStatus_missing read, Ledger.hasParent, ledger, read]
      rfl
    | some c =>
      have put := putConsentStatus_found read st
      rcases written : t.putConsentStatus id st with ⟨answer, t'⟩
      rw [written] at put
      obtain rfl : answer = _ := put
      simp only [putParentStatus, written, Ledger.hasParent, ledger, read]
      rfl
  | payment st =>
    obtain ⟨x, read⟩ := reads id
    rw [hasParent_payments read]
    cases x with
    | none =>
      simp only [putParentStatus, putPaymentStatus, writePayment_missing read]
      rfl
    | some q =>
      have put := writePayment_found (f := fun r => { r with status := st })
        (fun _ _ _ built => PaymentRow.withPsus_status built st) read
      rcases written : t.writePayment id fun r => { r with status := st } with ⟨answer, t'⟩
      rw [written] at put
      obtain rfl : answer = _ := put
      simp only [putParentStatus, putPaymentStatus, written]
      rfl

theorem hasParent_of_statusByProgress {a : Authorisation} {st : Parent.Status}
    (h : t.statusByProgress a = .ok (some st)) : t.ledger.hasParent a.parentId st = true := by
  unfold statusByProgress at h
  cases kind : a.purpose with
  | account =>
    simp only [kind] at h
    split at h
    · cases h
    · next c found =>
      obtain ⟨siblings, -, h⟩ := bind_eq_ok h
      obtain ⟨_, -, rfl⟩ := Option.map_eq_some_iff.mp (Except.ok.inj h)
      simp [Ledger.hasParent, ledger, found]
  | initiation =>
    simp only [kind] at h
    obtain ⟨x, read, h⟩ := bind_eq_ok h
    split at h
    · cases h
    · next q =>
      obtain ⟨siblings, -, h⟩ := bind_eq_ok h
      obtain ⟨next, -, rfl⟩ := Option.map_eq_some_iff.mp (Except.ok.inj h)
      exact hasParent_payments read next
  | cancellation =>
    simp only [kind] at h
    cases h

theorem statusByProgress_ok (legible : t.IsLegible) (reads : t.ReadsPayments)
    (a : Authorisation) : ∃ status, t.statusByProgress a = .ok status := by
  unfold statusByProgress
  cases a.purpose with
  | account =>
    cases read : t.readConsent a.parentId with
    | none => exact ⟨none, rfl⟩
    | some c =>
      obtain ⟨l, siblings, -⟩ := legible.readSiblings a.parentId .account
      simp only [siblings]
      exact ⟨_, rfl⟩
  | initiation =>
    obtain ⟨x, read⟩ := reads a.parentId
    cases x with
    | none => exact ⟨none, by simp only [read]; rfl⟩
    | some q =>
      obtain ⟨l, siblings, -⟩ := legible.readSiblings a.parentId .initiation
      simp only [read, siblings]
      exact ⟨_, rfl⟩
  | cancellation => exact ⟨none, rfl⟩

theorem settleParent_total (legible : t.IsLegible) (reads : t.ReadsPayments) (a : Authorisation) :
    ∃ t', t.settleParent a = .ok t' := by
  unfold settleParent
  split
  · obtain ⟨status, progress⟩ := statusByProgress_ok legible reads a
    rw [progress]
    cases status with
    | none => exact ⟨t, rfl⟩
    | some st =>
      have put := putParentStatus_isOk reads a.parentId st
      rw [hasParent_of_statusByProgress progress] at put
      exact exists_of_isOk put
  · exact ⟨t, rfl⟩

theorem updateAuthorisation_isOk (opened : t.isClosed = false) (legible : t.IsLegible)
    (distinct : Distinct t.records) (reads : t.ReadsPayments) {id : String} {a : Authorisation}
    (found : t.readAuthorisation id = .ok (some a)) (version : Int) {u : Authorisation.Update}
    (fits : u.challenge.all Sca.Challenge.fits = true) :
    (t.updateAuthorisation id version u).1.isOk =
      ((writeConflict a version).isNone && u.parentStatus.all (t.ledger.hasParent a.parentId)) := by
  unfold readAuthorisation at found
  split at found
  · cases found
  · next r row =>
    obtain ⟨a', read, e⟩ := map_eq_ok found
    cases e
    rw [updateAuthorisation, writing_of_open opened]
    cases free : writeConflict a version with
    | some e =>
      rw [transact_conflict row read free]
      rfl
    | none =>
      obtain ⟨n, position, same⟩ := position_of_find? AuthorisationRow.id row
      have modified := modifyRow_eq_set legible distinct position fun r => r.apply u
      rw [same] at modified
      have reread := AuthorisationRow.read_apply_ok read fits
      obtain ⟨legible', -⟩ := records_set legible reread modified
      have keeps := keepsLedger_modifyRow reads id fun r => r.apply u
      obtain ⟨t₁, settled⟩ := settleParent_total legible' keeps.reads (a.apply u)
      have keeps' := keeps.trans (keepsLedger_settleParent keeps.reads settled)
      rw [transact_eq row read free reread settled]
      cases reported : u.parentStatus with
      | none => rfl
      | some st =>
        have put := putParentStatus_isOk keeps'.reads a.parentId st
        rw [keeps'.ledger] at put
        refine Eq.trans ?_ put
        simp only [putOptionalStatus, show (a.apply u).parentId = a.parentId from rfl]
        cases t₁.putParentStatus a.parentId st <;> rfl

end TableStore

namespace MemoryStore
open StrongAuth.Store

variable {s : MemoryStore}

theorem hasParent_isOk (s : MemoryStore) (id : String) (st : Parent.Status) :
    (s.hasParent id st).isOk = s.ledger.hasParent id st := by
  cases st with
  | consent st =>
    simp only [hasParent, Ledger.hasParent, ledger]
    cases s.findConsent id <;> rfl
  | payment st =>
    simp only [hasParent, Ledger.hasParent, ledger]
    cases s.findPayment id <;> rfl

theorem updateAuthorisation_isOk (calm : s.isCalm = true) {id : String} {a : Authorisation}
    (found : s.findAuthorisation id = some a) (version : Int) (u : Authorisation.Update) :
    (s.updateAuthorisation id version u).1.isOk =
      ((writeConflict a version).isNone && u.parentStatus.all (s.ledger.hasParent a.parentId)) := by
  have noFailure := ((isCalm_iff s).mp calm).2.1
  cases free : writeConflict a version with
  | some e =>
    simp only [updateAuthorisation, noFailure, found, free]
    rfl
  | none =>
    simp only [updateAuthorisation, noFailure, found, free, checkParentStatus_of_calm calm]
    cases reported : u.parentStatus with
    | none => rfl
    | some st =>
      refine Eq.trans ?_ (s.hasParent_isOk a.parentId st)
      cases there : s.hasParent a.parentId st <;> simp only [there] <;> rfl

end MemoryStore

namespace Backend
open StrongAuth.Store

def ledger : Backend → Ledger
  | .memory s => s.ledger
  | .tables t => t.ledger

/-- Every payment can be read. -/
def ReadsPayments : Backend → Prop
  | .memory _ => True
  | .tables t => t.ReadsPayments

/-- Every record can be read, and no two authorisations have one id. -/
structure IsIntact (b : Backend) : Prop where
  sound : b.IsSound
  payments : b.ReadsPayments

theorem isIntact_of_isEmpty {b : Backend} (h : b.isEmpty = true) : b.IsIntact := by
  refine ⟨isSound_of_isFresh (isFresh_of_isEmpty h), ?_⟩
  cases b with
  | memory s => trivial
  | tables t =>
    simp only [isEmpty, Bool.and_eq_true, List.isEmpty_iff] at h
    refine fun i => ⟨none, TableStore.readPayment_none_iff.mpr ?_⟩
    rw [h.1.2]
    rfl

theorem ledger_consents (b : Backend) (i : String) :
    b.ledger.consents i = (b.consent? i).map Consent.substance := by
  cases b <;> rfl

theorem ledger_payments (b : Backend) (i : String) :
    b.ledger.payments i = (b.payment? i).map Payment.substance := by
  cases b <;> rfl

theorem ledger_of_payment {b : Backend} {i : String} {q : Payment} (there : b.payment? i = some q) :
    b.ledger.payments i = some q.substance := by
  rw [ledger_payments, there]
  rfl

theorem ledger_psus (b : Backend) : b.ledger.psus = b.psusOf := by
  cases b <;> rfl

theorem ledger_hasParent (b : Backend) (id : String) (st : Parent.Status) :
    b.ledger.hasParent id st = b.hasParent id st := by
  cases st with
  | consent st => simp [Ledger.hasParent, hasParent, ledger_consents]
  | payment st => simp [Ledger.hasParent, hasParent, ledger_payments]

theorem perform_memory (s : MemoryStore) (op : Operation) :
    op.perform (Backend.memory s) = ((op.perform s).1, .memory (op.perform s).2) := by
  cases op <;> rfl

theorem perform_tables (t : TableStore) (op : Operation) :
    op.perform (Backend.tables t) = ((op.perform t).1, .tables (op.perform t).2) := by
  cases op <;> rfl

variable {b b' : Backend}

theorem sharesPsus_perform (b : Backend) (op : Operation) :
    (op.perform b).2.sharesPsus = b.sharesPsus := by
  cases b with
  | memory s => rw [perform_memory]; rfl
  | tables t => rw [perform_tables]; rfl

theorem ledger_perform (h : b.ReadsPayments) (op : Operation) :
    (op.perform b).2.ReadsPayments ∧
      (op.perform b).2.ledger = b.ledger.after b.sharesPsus op (op.perform b).1 := by
  cases b with
  | memory s =>
    rw [perform_memory]
    exact ⟨trivial, s.ledger_perform op⟩
  | tables t =>
    rw [perform_tables]
    obtain ⟨reads, ledger⟩ := TableStore.enters_perform h op
    exact ⟨reads, ledger⟩

structure KeepsRecords (b b' : Backend) : Prop where
  records : b'.records = b.records
  sound : b.IsSound → b'.IsSound
  calm : b.isCalm = true → b'.isCalm = true

theorem Keeps.keepsRecords (h : Keeps b b' ∧ (b.isCalm = true → b'.isCalm = true)) :
    KeepsRecords b b' := ⟨h.1.records, h.1.sound, h.2⟩

theorem keepsRecords_memory {s s' : MemoryStore} (records : s'.authorisations = s.authorisations)
    (calm : s'.isCalm = s.isCalm) : KeepsRecords (.memory s) (.memory s') := by
  refine ⟨records, fun sound => ?_, fun quiet => calm.trans quiet⟩
  rw [IsSound, records]
  exact sound

theorem keepsRecords_tables {t t' : TableStore} (rows : t'.authorisations = t.authorisations)
    (closed : t'.isClosed = t.isClosed) : KeepsRecords (.tables t) (.tables t') := by
  have records : t'.records = t.records := by simp only [TableStore.records, rows]
  refine ⟨records, ?_, isCalm_tables_of_eq closed⟩
  rintro ⟨legible, distinct⟩
  refine ⟨(TableStore.records_same legible rows).1, ?_⟩
  rw [records]
  exact distinct

theorem setConsentStatus_keepsRecords (b : Backend) (id : String) (st : Consent.Status) :
    KeepsRecords b (Store.setConsentStatus b id st).2 := by
  cases b with
  | memory s =>
    obtain ⟨records, calm⟩ := s.putParentStatus_frame id (.consent st)
    change KeepsRecords _ (.memory (s.setConsentStatus id st).2)
    unfold MemoryStore.setConsentStatus
    split
    · exact keepsRecords_memory rfl rfl
    · exact keepsRecords_memory records calm
  | tables t =>
    obtain ⟨closed, rows, -⟩ := t.putConsentStatus_frame id st
    change KeepsRecords _ (.tables (t.writing (t.putConsentStatus id st)).2)
    unfold TableStore.writing
    split
    · exact keepsRecords_tables rfl rfl
    · exact keepsRecords_tables rows closed

theorem setPaymentStatus_keepsRecords (b : Backend) (id : String) (st : Payment.Status) :
    KeepsRecords b (Store.setPaymentStatus b id st).2 := by
  cases b with
  | memory s =>
    obtain ⟨records, calm⟩ := s.putParentStatus_frame id (.payment st)
    change KeepsRecords _ (.memory (s.setPaymentStatus id st).2)
    unfold MemoryStore.setPaymentStatus
    split
    · exact keepsRecords_memory rfl rfl
    · exact keepsRecords_memory records calm
  | tables t =>
    obtain ⟨closed, rows, -⟩ := t.writePayment_frame id fun r => { r with status := st }
    change KeepsRecords _ (.tables (t.writing (t.putPaymentStatus id st)).2)
    unfold TableStore.writing
    split
    · exact keepsRecords_tables rfl rfl
    · exact keepsRecords_tables rows closed

structure Enrols {α : Type} (b : Backend) (op : Operation) (x : Except StoreError α)
    (b' : Backend) : Prop where
  records : b'.records = if x.isOk then op.enrol b.nextId b.records else b.records
  sound : b'.IsSound
  calm : b.isCalm = true → b'.isCalm = true

theorem Enrols.map {α β : Type} {x : Except StoreError α} {op : Operation} (h : Enrols b op x b')
    (f : α → β) : Enrols b op (x.map f) b' := by
  refine ⟨?_, h.sound, h.calm⟩
  rw [h.records]
  cases x <;> rfl

theorem enrols_insertAuthorisation (sound : b.IsSound) (d : Authorisation.Draft) :
    Enrols b (.insertAuthorisation d) (Store.insertAuthorisation b d).1
      (Store.insertAuthorisation b d).2 := by
  generalize h : Store.insertAuthorisation b d = answer
  obtain ⟨x, b'⟩ := answer
  cases x with
  | error e =>
    obtain rfl := insertAuthorisation_error h
    exact ⟨rfl, sound, fun calm => calm⟩
  | ok a =>
    obtain ⟨rfl, records, -, -, sound', calm⟩ := insertAuthorisation_ok sound h
    exact ⟨records, sound', calm⟩

theorem enrols_updateAuthorisation (sound : b.IsSound) (id : String) (version : Int)
    (u : Authorisation.Update) :
    Enrols b (.updateAuthorisation id version u) (Store.updateAuthorisation b id version u).1
      (Store.updateAuthorisation b id version u).2 := by
  generalize h : Store.updateAuthorisation b id version u = answer
  obtain ⟨x, b'⟩ := answer
  cases x with
  | error e =>
    have keeps := updateAuthorisation_error h
    exact ⟨keeps.records, keeps.sound sound, keeps.calm⟩
  | ok a =>
    obtain ⟨rewrites, -, sound', calm⟩ := updateAuthorisation_ok sound h
    exact ⟨rewrites.eq_enrol sound.distinct b.nextId, sound', calm⟩

theorem enrols_perform (sound : b.IsSound) (op : Operation) :
    Enrols b op (op.perform b).1 (op.perform b).2 := by
  have idle {α : Type} (x : Except StoreError α) {b' : Backend} (keeps : KeepsRecords b b')
      (same : ∀ l, op.enrol b.nextId l = l) : Enrols b op x b' := by
    refine ⟨keeps.records.trans ?_, keeps.sound sound, keeps.calm⟩
    rw [same, ite_self]
  have self : KeepsRecords b b := ⟨rfl, fun sound => sound, fun calm => calm⟩
  cases op with
  | authorisation | authorisationsOf | consent | payment => exact idle _ self fun _ => rfl
  | insertAuthorisation d => exact (enrols_insertAuthorisation sound d).map _
  | updateAuthorisation id version u => exact (enrols_updateAuthorisation sound id version u).map _
  | insertConsent d => exact idle _ (Keeps.keepsRecords (b.insertConsent_keeps d)) fun _ => rfl
  | setConsentStatus id st => exact idle _ (b.setConsentStatus_keepsRecords id st) fun _ => rfl
  | insertPayment q => exact idle _ (Keeps.keepsRecords (b.insertPayment_keeps q)) fun _ => rfl
  | saveOrder id order =>
    have keeps : KeepsCalm b (Store.saveOrder b id order).2 := saveOrder_keeps rfl
    exact idle _ (Keeps.keepsRecords ⟨keeps.toKeeps, keeps.calm⟩) fun _ => rfl
  | setPaymentStatus id st => exact idle _ (b.setPaymentStatus_keepsRecords id st) fun _ => rfl

theorem isIntact_perform (h : b.IsIntact) (op : Operation) : (op.perform b).2.IsIntact :=
  ⟨(enrols_perform h.sound op).sound, (ledger_perform h.payments op).1⟩

/-- A calm store accepts an update unless the authorisation is closed to it or the parent is missing. -/
theorem updateAuthorisation_isOk (intact : b.IsIntact) (calm : b.isCalm = true) {id : String}
    {a : Authorisation} (found : Store.authorisation b id = .ok (some a)) (version : Int)
    {u : Authorisation.Update} (fits : u.challenge.all Sca.Challenge.fits = true) :
    (Store.updateAuthorisation b id version u).1.isOk =
      ((writeConflict a version).isNone && u.parentStatus.all (b.hasParent a.parentId)) := by
  rw [← funext (b.ledger_hasParent a.parentId)]
  cases b with
  | memory s =>
    have reads := ((MemoryStore.isCalm_iff s).mp calm).1
    change s.authorisation id = .ok (some a) at found
    rw [MemoryStore.authorisation, reads] at found
    exact MemoryStore.updateAuthorisation_isOk calm (Except.ok.inj found) version u
  | tables t =>
    have opened : t.isClosed = false := by simpa [isCalm] using calm
    change t.reading (t.readAuthorisation id) = .ok (some a) at found
    rw [TableStore.reading_of_open opened] at found
    exact TableStore.updateAuthorisation_isOk opened intact.sound.1 intact.sound.2 intact.payments
      found version fits

theorem fresh_of_insertConsent {d : Consent.Draft}
    (h : (Store.insertConsent b d).1.isOk = true) : b.ledger.consents d.id = none := by
  cases b with
  | memory s =>
    change (s.insertConsent d).1.isOk = true at h
    unfold MemoryStore.insertConsent at h
    split at h
    · cases h
    · next missing => exact congrArg (Option.map _) missing
  | tables t =>
    change (t.insertConsent d).1.isOk = true at h
    unfold TableStore.insertConsent TableStore.writing at h
    split at h
    · cases h
    · split at h
      · cases h
      · next missing => exact congrArg (Option.map _) missing

theorem fresh_of_insertPayment {q : Payment} (h : (Store.insertPayment b q).1.isOk = true) :
    b.ledger.payments q.id = none := by
  cases b with
  | memory s =>
    change (s.insertPayment q).1.isOk = true at h
    unfold MemoryStore.insertPayment at h
    split at h
    · cases h
    · next missing => exact congrArg (Option.map _) missing
  | tables t =>
    change (t.insertPayment q).1.isOk = true at h
    unfold TableStore.insertPayment TableStore.writing at h
    split at h
    · cases h
    · split at h
      · cases h
      · cases h
      · next missing => exact TableStore.payments_ledger missing

theorem consent_of_calm (calm : b.isCalm = true) (i : String) :
    Store.consent b i = .ok (b.consent? i) := by
  cases b with
  | memory s => rfl
  | tables t =>
    have opened : t.isClosed = false := by simpa [isCalm] using calm
    exact TableStore.reading_of_open opened _

theorem payment_of_calm (reads : b.ReadsPayments) (calm : b.isCalm = true) (i : String) :
    Store.payment b i = .ok (b.payment? i) := by
  cases b with
  | memory s => rfl
  | tables t =>
    have opened : t.isClosed = false := by simpa [isCalm] using calm
    obtain ⟨x, read⟩ := reads i
    have found : (Backend.tables t).payment? i = x := by
      simp only [payment?, read]
      rfl
    rw [found]
    exact (TableStore.reading_of_open opened _).trans read

theorem payment?_of_payment {i : String} {q : Payment} (read : Store.payment b i = .ok (some q)) :
    b.payment? i = some q := by
  cases b with
  | memory s => exact Except.ok.inj read
  | tables t =>
    change t.reading (t.readPayment i) = .ok (some q) at read
    unfold TableStore.reading at read
    split at read
    · cases read
    · simp only [payment?, read]
      rfl

theorem saveOrder_isOk {i : String} {q : Payment} (read : Store.payment b i = .ok (some q))
    (order : Order) : (Store.saveOrder b i order).1.isOk = true := by
  cases b with
  | memory s =>
    have found : s.findPayment i = some q := Except.ok.inj read
    change (s.saveOrder i order).1.isOk = true
    simp only [MemoryStore.saveOrder, found]
    rfl
  | tables t =>
    change t.reading (t.readPayment i) = .ok (some q) at read
    change (t.saveOrder i order).1.isOk = true
    unfold TableStore.reading at read
    split at read
    · cases read
    · next opened =>
      rw [TableStore.saveOrder, TableStore.writing_of_open (Bool.eq_false_iff.mpr opened),
        TableStore.writePayment_found (fun _ _ _ built => PaymentRow.withPsus_order built order) read]
      rfl

section Run

theorem isIntact_performed (h : b.IsIntact) (ops : List Operation) :
    (performed b ops).IsIntact := by
  induction ops generalizing b with
  | nil => exact h
  | cons op ops ih => exact ih (isIntact_perform h op)

theorem isCalm_performed (h : b.IsIntact) (calm : b.isCalm = true) (ops : List Operation) :
    (performed b ops).isCalm = true := by
  induction ops generalizing b with
  | nil => exact calm
  | cons op ops ih => exact ih (isIntact_perform h op) ((enrols_perform h.sound op).calm calm)

theorem ledger_performed (h : b.IsIntact) (ops : List Operation) :
    (performed b ops).ledger = (accepted b ops).foldl (Ledger.enter b.sharesPsus) b.ledger := by
  induction ops generalizing b with
  | nil => rfl
  | cons op ops ih =>
    have step := (ledger_perform h.payments op).2
    have rest := ih (isIntact_perform h op)
    rw [sharesPsus_perform, step] at rest
    rw [performed, rest, accepted_cons, Ledger.after]
    split <;> rfl

end Run

end Backend

end StrongAuth
