import StrongAuth.Proofs.Store.Lookups
import StrongAuth.Samples

set_option autoImplicit false

/-!
# The two stores cannot be told apart

A store in memory and a store of tables that hold the same records answer every operation alike, and
hold the same records afterwards. What they hold is compared by lookups. The PSUs of a consent and
of a payment are filed under the id alone, so the one sort of id has to be kept apart from the other.
-/
namespace StrongAuth

namespace Store

/-- The clock of the tables is never set back. -/
def IsSteady (clock : Nat → Int) : Prop := ∀ k n, k ≤ n → clock k ≤ clock n

/-- The tables hold what the memory holds, and can be read. Each row was created at the time that the
clock showed at its insertion. The predicate tells the ids of consents from those of payments. -/
structure Mirrors (isConsentId : String → Prop) (m : MemoryStore) (t : TableStore) : Prop where
  opened : t.isClosed = false
  calm : m.isCalm = true
  distinct : Distinct m.authorisations
  rows : t.authorisations.map AuthorisationRow.read = m.authorisations.map .ok
  ids : t.ids = m.ids
  steady : IsSteady t.clock
  aged : ∀ (n : Nat) (r : AuthorisationRow), t.authorisations[n]? = some r → r.createdAt = t.clock n
  consent : ∀ i, t.readConsent i = m.findConsent i
  payment : ∀ i, t.readPayment i = .ok (m.findPayment i)
  consentIds : ∀ i, m.findConsent i ≠ none → isConsentId i
  paymentIds : ∀ i, m.findPayment i ≠ none → ¬isConsentId i
  filed : ∀ i, m.findConsent i = none → m.findPayment i = none → t.psusOf i = []

/-- The same answer, and the same records afterwards. -/
def Agree {α : Type} (isConsentId : String → Prop) (x : Except StoreError α × MemoryStore)
    (y : Except StoreError α × TableStore) : Prop :=
  x.1 = y.1 ∧ Mirrors isConsentId x.2 y.2

namespace Mirrors

variable {isConsentId : String → Prop} {m : MemoryStore} {t : TableStore}

theorem legible (h : Mirrors isConsentId m t) : t.IsLegible :=
  (TableStore.records_of_reads rfl h.rows).1

theorem records (h : Mirrors isConsentId m t) : t.records = m.authorisations :=
  (TableStore.records_of_reads rfl h.rows).2

theorem counted (h : Mirrors isConsentId m t) (writes : Writes) :
    Mirrors isConsentId { m with writes } t :=
  { h with }

theorem siblings (h : Mirrors isConsentId m t) (parentId : String) (p : Purpose) :
    t.readSiblings parentId p = .ok (m.siblings parentId p) := by
  have ordered : t.authorisations.Pairwise fun r q => r.createdAt ≤ q.createdAt := by
    refine List.pairwise_iff_getElem.mpr fun k n hk hn before => ?_
    rw [h.aged k _ (List.getElem?_eq_getElem hk), h.aged n _ (List.getElem?_eq_getElem hn)]
    exact h.steady k n (Nat.le_of_lt before)
  obtain ⟨l, read, -⟩ := h.legible.readSiblings parentId p
  have rows := TableStore.records_of_map_read (TableStore.mapM_eq_ok_iff.mp read)
  rw [AuthorisationRow.oldestFirst_of_pairwise (ordered.filter _), t.records_siblings,
    h.records] at rows
  rw [read, ← rows]
  rfl

theorem row (h : Mirrors isConsentId m t) (id : String) :
    (t.authorisations.find? fun r => r.id == id).map AuthorisationRow.read =
      (m.findAuthorisation id).map .ok := by
  have rows := h.rows
  -- Both lists are walked together, since a row has the id of its record.
  unfold MemoryStore.findAuthorisation
  generalize t.authorisations = rs at rows ⊢
  generalize m.authorisations = as at rows ⊢
  induction rs generalizing as with
  | nil =>
    rw [List.map_eq_nil_iff.mp rows.symm]
    rfl
  | cons r rs ih =>
    obtain ⟨a, as, rfl, read, others⟩ := List.map_eq_cons_iff.mp rows.symm
    have same : a.id = r.id := (TableStore.id_of_read read.symm).1
    simp only [List.find?_cons, same]
    split
    · exact congrArg some read.symm
    · exact ih as others.symm

theorem used (h : Mirrors isConsentId m t) :
    t.authorisations.map AuthorisationRow.id = m.authorisations.map Authorisation.id := by
  have rows := h.rows
  generalize t.authorisations = rs at rows ⊢
  generalize m.authorisations = as at rows ⊢
  induction rs generalizing as with
  | nil =>
    rw [List.map_eq_nil_iff.mp rows.symm]
    rfl
  | cons r rs ih =>
    obtain ⟨a, as, rfl, read, others⟩ := List.map_eq_cons_iff.mp rows.symm
    rw [List.map_cons, List.map_cons, (TableStore.id_of_read read.symm).1, ih as others.symm]

theorem authorisation (h : Mirrors isConsentId m t) (id : String) :
    t.readAuthorisation id = .ok (m.findAuthorisation id) := by
  have row := h.row id
  unfold TableStore.readAuthorisation
  cases found : m.findAuthorisation id with
  | none =>
    rw [found] at row
    rw [Option.map_eq_none_iff.mp row]
  | some a =>
    rw [found] at row
    obtain ⟨r, here, read⟩ := Option.map_eq_some_iff.mp row
    rw [here]
    simp only [read]
    rfl

theorem insertAuthorisation (h : Mirrors isConsentId m t) (d : Authorisation.Draft) :
    Agree isConsentId (m.insertAuthorisation d) (t.insertAuthorisation d) := by
  have next : t.nextId = m.nextId := by
    rw [TableStore.nextId, MemoryStore.nextId, h.ids, h.used]
  rw [TableStore.insertAuthorisation_eq, TableStore.writing_of_open h.opened, next]
  refine ⟨rfl, { h with distinct := ?_, rows := ?_, aged := fun n r there => ?_ }⟩
  · exact h.distinct.append (m.ids.fresh _)
  · change List.map _ (t.authorisations ++ [_]) = List.map _ (m.authorisations ++ [_])
    rw [List.map_append, List.map_append, h.rows, List.map_singleton, List.map_singleton,
      AuthorisationRow.read_ofDraft]
  · change (t.authorisations ++ [_])[n]? = some r at there
    rw [List.getElem?_append] at there
    split at there
    · exact h.aged n r there
    · next beyond =>
      rw [List.getElem?_singleton] at there
      split at there
      · cases there
        exact congrArg t.clock (by omega)
      · cases there

theorem rewritten (h : Mirrors isConsentId m t) {m' : MemoryStore} {t' : TableStore}
    (tables : ∃ consents payments, t' = { t with consents, payments })
    (memory : ∃ consents payments writes, m' = { m with consents, payments, writes })
    (consent : ∀ i, t'.readConsent i = m'.findConsent i)
    (payment : ∀ i, t'.readPayment i = .ok (m'.findPayment i))
    (consents : ∀ i, m'.findConsent i = none ↔ m.findConsent i = none)
    (payments : ∀ i, m'.findPayment i = none ↔ m.findPayment i = none) :
    Mirrors isConsentId m' t' := by
  obtain ⟨_, _, rfl⟩ := tables
  obtain ⟨_, _, _, rfl⟩ := memory
  exact { h with
    consent
    payment
    consentIds := fun i there => h.consentIds i (mt (consents i).mpr there)
    paymentIds := fun i there => h.paymentIds i (mt (payments i).mpr there)
    filed := fun i noConsent noPayment =>
      h.filed i ((consents i).mp noConsent) ((payments i).mp noPayment) }

theorem putConsentStatus (h : Mirrors isConsentId m t) (id : String) (st : Consent.Status) :
    Mirrors isConsentId (m.putConsentStatus id st) (t.putConsentStatus id st).2 := by
  obtain ⟨-, -, payments, -⟩ := t.putConsentStatus_frame id st
  obtain ⟨consents, put⟩ := t.exists_putConsentStatus_eq id st
  have found := fun i => m.findConsent_putConsentStatus id i st
  have others := m.findPayment_putConsentStatus id st
  refine h.rewritten ⟨consents, _, put⟩ (m.exists_putParentStatus_eq id (.consent st))
    (fun i => ?_) (fun i => ?_) (fun i => ?_) (fun i => ?_)
  · rw [TableStore.readConsent_putConsentStatus, h.consent, found]
  · rw [payments, others]
    exact h.payment i
  · rw [found, Option.map_eq_none_iff]
  · rw [others]

theorem setConsentStatus (h : Mirrors isConsentId m t) (id : String) (st : Consent.Status) :
    Agree isConsentId (m.setConsentStatus id st) (t.putConsentStatus id st) := by
  have read := h.consent id
  unfold MemoryStore.setConsentStatus
  cases found : m.findConsent id with
  | none =>
    rw [TableStore.putConsentStatus_missing (read.trans found)]
    exact ⟨rfl, h⟩
  | some c =>
    exact ⟨(TableStore.putConsentStatus_found (read.trans found) st).symm, h.putConsentStatus id st⟩

theorem writePayment (h : Mirrors isConsentId m t) {m' : MemoryStore} {id : String}
    {f : PaymentRow → PaymentRow} {g : Payment → Payment} (keeps : ∀ r, (f r).id = r.id)
    (follows : ∀ r psus q, r.withPsus psus = .ok q → (f r).withPsus psus = .ok (g q))
    (memory : ∃ consents payments writes, m' = { m with consents, payments, writes })
    (consents : m'.findConsent = m.findConsent)
    (payments : ∀ i, m'.findPayment i =
      (m.findPayment i).map fun q => if i = id then g q else q) :
    Mirrors isConsentId m' (t.writePayment id f).2 := by
  obtain ⟨-, -, others, -⟩ := t.writePayment_frame id f
  obtain ⟨_, wrote⟩ := t.exists_writePayment_eq id f
  refine h.rewritten ⟨_, _, wrote⟩ memory (fun i => ?_) (fun i => ?_) (fun i => ?_)
    (fun i => ?_)
  · rw [others, consents]
    exact h.consent i
  · rw [payments]
    exact TableStore.readPayment_writePayment keeps follows (h.payment i)
  · rw [consents]
  · rw [payments, Option.map_eq_none_iff]

theorem setPaymentStatus (h : Mirrors isConsentId m t) (id : String) (st : Payment.Status) :
    Agree isConsentId (m.setPaymentStatus id st) (t.putPaymentStatus id st) := by
  have read := h.payment id
  have follows (r : PaymentRow) (psus : List Psu) (q : Payment) (built : r.withPsus psus = .ok q) :=
    PaymentRow.withPsus_status built st
  unfold MemoryStore.setPaymentStatus TableStore.putPaymentStatus
  cases found : m.findPayment id with
  | none =>
    rw [found] at read
    rw [TableStore.writePayment_missing read]
    exact ⟨rfl, h⟩
  | some q =>
    rw [found] at read
    refine ⟨(TableStore.writePayment_found follows read).symm, ?_⟩
    exact h.writePayment (fun _ => rfl) follows (m.exists_putParentStatus_eq id (.payment st))
      (m.findConsent_putPaymentStatus id st) fun i => m.findPayment_putPaymentStatus id i st

theorem saveOrder (h : Mirrors isConsentId m t) (id : String) (o : Order) :
    Agree isConsentId (m.saveOrder id o) (t.saveOrder id o) := by
  have read := h.payment id
  have follows (r : PaymentRow) (psus : List Psu) (q : Payment) (built : r.withPsus psus = .ok q) :=
    PaymentRow.withPsus_order built o
  rw [TableStore.saveOrder, TableStore.writing_of_open h.opened]
  unfold MemoryStore.saveOrder
  cases found : m.findPayment id with
  | none =>
    rw [found] at read
    rw [TableStore.writePayment_missing read]
    exact ⟨rfl, h⟩
  | some q =>
    rw [found] at read
    refine ⟨(TableStore.writePayment_found follows read).symm, ?_⟩
    refine h.writePayment (fun _ => rfl) follows ⟨_, _, _, rfl⟩ rfl fun i => ?_
    exact find?_rewritten Payment.id (fun q => { q with order := some o }) (fun _ => rfl)
      m.payments id i

theorem putParentStatus_missing (h : Mirrors isConsentId m t) {id : String} {st : Parent.Status}
    {e : StoreError} (missing : m.hasParent id st = .error e) : t.putParentStatus id st = .error e := by
  cases st with
  | consent st =>
    have read := h.consent id
    simp only [MemoryStore.hasParent] at missing
    split at missing
    · cases missing
    · next absent =>
      cases missing
      rw [Option.not_isSome_iff_eq_none.mp absent] at read
      simp only [TableStore.putParentStatus, TableStore.putConsentStatus_missing read]
  | payment st =>
    have read := h.payment id
    simp only [MemoryStore.hasParent] at missing
    split at missing
    · cases missing
    · next absent =>
      cases missing
      rw [Option.not_isSome_iff_eq_none.mp absent] at read
      simp only [TableStore.putParentStatus, TableStore.putPaymentStatus,
        TableStore.writePayment_missing read]

theorem putParentStatus_found (h : Mirrors isConsentId m t) {id : String} {st : Parent.Status}
    (there : m.hasParent id st = .ok ()) : ∃ t', t.putParentStatus id st = .ok t' ∧
      Mirrors isConsentId (m.putParentStatus id st) t' := by
  cases st with
  | consent st =>
    simp only [MemoryStore.hasParent] at there
    split at there
    · next present =>
      obtain ⟨c, found⟩ := Option.isSome_iff_exists.mp present
      have answer := TableStore.putConsentStatus_found ((h.consent id).trans found) st
      refine ⟨(t.putConsentStatus id st).2, ?_, h.putConsentStatus id st⟩
      simp only [TableStore.putParentStatus]
      split
      · next written => rw [written]
      · next refused => simp [refused] at answer
    · cases there
  | payment st =>
    simp only [MemoryStore.hasParent] at there
    split at there
    · next present =>
      obtain ⟨q, found⟩ := Option.isSome_iff_exists.mp present
      obtain ⟨answer, after⟩ := h.setPaymentStatus id st
      simp only [MemoryStore.setPaymentStatus, found] at answer after
      refine ⟨(t.putPaymentStatus id st).2, ?_, after⟩
      simp only [TableStore.putParentStatus]
      split
      · next written => rw [written]
      · next refused => simp [refused] at answer
    · cases there

theorem statusByProgress (h : Mirrors isConsentId m t) (a : Authorisation) :
    t.statusByProgress a = .ok (m.statusByProgress a) := by
  unfold TableStore.statusByProgress MemoryStore.statusByProgress
  cases a.purpose with
  | account =>
    simp only [h.consent, h.siblings]
    cases m.findConsent a.parentId <;> rfl
  | initiation =>
    simp only [h.payment, h.siblings]
    cases m.findPayment a.parentId <;> rfl
  | cancellation => rfl

theorem settleParent (h : Mirrors isConsentId m t) (a : Authorisation) :
    ∃ t', t.settleParent a = .ok t' ∧ Mirrors isConsentId (m.settleParent a) t' := by
  unfold TableStore.settleParent MemoryStore.settleParent
  cases a.status.isGranted with
  | false => exact ⟨t, rfl, h⟩
  | true =>
    simp only [if_true, h.statusByProgress]
    cases status : m.statusByProgress a with
    | none => exact ⟨t, rfl, h⟩
    | some st => exact h.putParentStatus_found (MemoryStore.hasParent_of_statusByProgress status)

theorem modify (h : Mirrors isConsentId m t) {id : String} {a : Authorisation}
    (found : m.findAuthorisation id = some a) {u : Authorisation.Update}
    (fits : u.challenge.all Sca.Challenge.fits = true) :
    Mirrors isConsentId (m.modifyAuthorisation id fun _ => a.apply u)
      (t.modifyRow id fun r => r.apply u) := by
  obtain ⟨n, there, rfl⟩ := position_of_find? Authorisation.id found
  have memory : (m.modifyAuthorisation a.id fun _ => a.apply u).authorisations =
      m.authorisations.set n (a.apply u) :=
    rewritten_eq_set Authorisation.id (fun _ => a.apply u) there fun _ _ hb same =>
      h.distinct.unique hb there same
  have records := h.records
  have distinct := h.distinct
  rw [← records] at there distinct
  obtain ⟨r, row, read⟩ := h.legible.row_of_record there
  have tables := TableStore.modifyRow_eq_set h.legible distinct row fun r => r.apply u
  rw [← (TableStore.id_of_read read).1] at tables
  refine { h with distinct := ?_, rows := ?_, aged := fun k q at_k => ?_ }
  · rw [memory, ← records]
    exact distinct.set there rfl
  · rw [memory, tables, List.map_set, List.map_set, h.rows,
      AuthorisationRow.read_apply_ok read fits]
  · rw [tables, List.getElem?_set] at at_k
    split at at_k
    · next position =>
      split at at_k
      · cases at_k
        rw [← position]
        exact h.aged n r row
      · cases at_k
    · exact h.aged k q at_k

theorem advance (h : Mirrors isConsentId m t) {id : String} {a : Authorisation}
    (found : m.findAuthorisation id = some a) {u : Authorisation.Update}
    (fits : u.challenge.all Sca.Challenge.fits = true) :
    ∃ t', (t.modifyRow id fun r => r.apply u).settleParent (a.apply u) = .ok t' ∧
      Mirrors isConsentId (m.advanced a u) t' := by
  obtain rfl : a.id = id := by simpa using List.find?_some found
  exact ((h.modify found fits).counted _).settleParent (a.apply u)

theorem updateAuthorisation (h : Mirrors isConsentId m t) (id : String) (version : Int)
    {u : Authorisation.Update} (fits : u.challenge.all Sca.Challenge.fits = true) :
    Agree isConsentId (m.updateAuthorisation id version u) (t.updateAuthorisation id version u) := by
  have row := h.row id
  rw [TableStore.updateAuthorisation, TableStore.writing_of_open h.opened]
  unfold MemoryStore.updateAuthorisation
  rw [((MemoryStore.isCalm_iff m).mp h.calm).2.1]
  cases found : m.findAuthorisation id with
  | none =>
    rw [found] at row
    rw [TableStore.transact_missing (Option.map_eq_none_iff.mp row)]
    exact ⟨rfl, h⟩
  | some a =>
    rw [found] at row
    obtain ⟨r, here, read⟩ := Option.map_eq_some_iff.mp row
    cases free : writeConflict a version with
    | some e =>
      rw [TableStore.transact_conflict here read free]
      simp only [free]
      exact ⟨rfl, h⟩
    | none =>
      obtain ⟨t₁, settled, h₁⟩ := h.advance found fits
      have reread := AuthorisationRow.read_apply_ok read fits
      rw [TableStore.transact_eq here read free reread settled]
      simp only [free, MemoryStore.checkParentStatus_of_calm h.calm, MemoryStore.writeUpdate_eq]
      cases reported : u.parentStatus with
      | none => exact ⟨rfl, h₁⟩
      | some st =>
        -- The memory looks for the parent before it writes anything, the tables when all else is
        -- written. Nothing in between adds or removes a parent.
        have same := m.hasParent_advanced a u a.parentId st
        simp only [TableStore.putOptionalStatus]
        cases there : m.hasParent a.parentId st with
        | error e =>
          rw [there] at same
          have refused := h₁.putParentStatus_missing same
          rw [show (a.apply u).parentId = a.parentId from rfl, refused]
          exact ⟨rfl, h⟩
        | ok _ =>
          rw [there] at same
          obtain ⟨t₂, put, h₂⟩ := h₁.putParentStatus_found same
          rw [show (a.apply u).parentId = a.parentId from rfl, put]
          exact ⟨rfl, h₂⟩

theorem inserted (h : Mirrors isConsentId m t) (id : String) {m' : MemoryStore} {t' : TableStore}
    (tables : ∃ consents payments psus, t' = { t with consents, payments, psus })
    (memory : ∃ consents payments writes, m' = { m with consents, payments, writes })
    (consent : ∀ i, t'.readConsent i = m'.findConsent i)
    (payment : ∀ i, t'.readPayment i = .ok (m'.findPayment i))
    (others : ∀ i, i ≠ id → m'.findConsent i = m.findConsent i ∧
      m'.findPayment i = m.findPayment i ∧ t'.psusOf i = t.psusOf i)
    (consentId : m'.findConsent id ≠ none → isConsentId id)
    (paymentId : m'.findPayment id ≠ none → ¬isConsentId id)
    (there : ¬(m'.findConsent id = none ∧ m'.findPayment id = none)) :
    Mirrors isConsentId m' t' := by
  obtain ⟨_, _, _, rfl⟩ := tables
  obtain ⟨_, _, _, rfl⟩ := memory
  refine { h with
    consent
    payment
    consentIds := fun i found => ?_
    paymentIds := fun i found => ?_
    filed := fun i noConsent noPayment => ?_ }
  · by_cases here : i = id
    · subst here
      exact consentId found
    · exact h.consentIds i ((others i here).1 ▸ found)
  · by_cases here : i = id
    · subst here
      exact paymentId found
    · exact h.paymentIds i ((others i here).2.1 ▸ found)
  · have elsewhere : i ≠ id := by
      rintro rfl
      exact there ⟨noConsent, noPayment⟩
    obtain ⟨sameConsent, samePayment, samePsus⟩ := others i elsewhere
    rw [samePsus]
    exact h.filed i (sameConsent ▸ noConsent) (samePayment ▸ noPayment)

theorem insertConsent (h : Mirrors isConsentId m t) {d : Consent.Draft} (own : isConsentId d.id) :
    Agree isConsentId (m.insertConsent d) (t.insertConsent d) := by
  rw [TableStore.insertConsent, TableStore.writing_of_open h.opened, h.consent]
  unfold MemoryStore.insertConsent
  cases found : m.findConsent d.id with
  | some c => exact ⟨rfl, h⟩
  | none =>
    have noPayment : m.findPayment d.id = none :=
      Classical.byContradiction fun there => h.paymentIds d.id there own
    have unread := (h.consent d.id).trans found
    have unpaid : t.readPayment d.id = .ok none := noPayment ▸ h.payment d.id
    have memory (i : String) : MemoryStore.findConsent _ i = if i = d.id then _ else _ :=
      MemoryStore.findConsent_inserted (c := Consent.ofDraft d) found i
    have tables (i : String) : TableStore.readConsent _ i = if i = d.id then _ else _ :=
      TableStore.readConsent_inserted (r := ConsentRow.ofDraft d) unread d.psus i
    refine ⟨rfl, h.inserted d.id ⟨_, _, _, rfl⟩ ⟨_, _, _, rfl⟩ (fun i => ?_)
      (fun i => (TableStore.readPayment_filePsus unpaid d.psus i).trans (h.payment i))
      (fun i elsewhere => ⟨(memory i).trans (if_neg elsewhere), rfl,
        TableStore.psusOf_filePsus_other elsewhere d.psus⟩) (fun _ => own)
      (fun there => absurd noPayment there)
      (fun absent => nomatch (if_pos rfl).symm.trans ((memory d.id).symm.trans absent.1))⟩
    rw [memory]
    refine (tables i).trans ?_
    by_cases here : i = d.id
    · rw [if_pos here, if_pos here, here, h.filed d.id found noPayment]
      rfl
    · rw [if_neg here, if_neg here]
      exact h.consent i

theorem insertPayment (h : Mirrors isConsentId m t) {p : Payment} (other : ¬isConsentId p.id) :
    Agree isConsentId (m.insertPayment p) (t.insertPayment p) := by
  rw [TableStore.insertPayment, TableStore.writing_of_open h.opened, h.payment]
  unfold MemoryStore.insertPayment
  cases found : m.findPayment p.id with
  | some q => exact ⟨rfl, h⟩
  | none =>
    have noConsent : m.findConsent p.id = none :=
      Classical.byContradiction fun there => other (h.consentIds p.id there)
    have unpaid : t.readPayment p.id = .ok none := found ▸ h.payment p.id
    have unread := (h.consent p.id).trans noConsent
    have memory := MemoryStore.findPayment_inserted found
    have tables (i : String) : TableStore.readPayment _ i = if i = p.id then _ else _ :=
      TableStore.readPayment_inserted (r := PaymentRow.ofPayment p) unpaid p.psus i
    simp only [PaymentRow.withPsus_ofPayment]
    refine ⟨rfl, h.inserted p.id ⟨_, _, _, rfl⟩ ⟨_, _, _, rfl⟩
      (fun i => (TableStore.readConsent_filePsus unread p.psus i).trans (h.consent i)) (fun i => ?_)
      (fun i elsewhere => ⟨rfl, (memory i).trans (if_neg elsewhere),
        TableStore.psusOf_filePsus_other elsewhere p.psus⟩) (fun there => absurd noConsent there)
      (fun _ => other)
      (fun absent => nomatch (if_pos rfl).symm.trans ((memory p.id).symm.trans absent.2))⟩
    rw [memory]
    refine (tables i).trans ?_
    by_cases here : i = p.id
    · rw [if_pos here, if_pos here, here, h.filed p.id noConsent found, List.nil_append,
        PaymentRow.withPsus_ofPayment]
      rfl
    · rw [if_neg here, if_neg here]
      exact h.payment i

theorem empty (isConsentId : String → Prop) (url : String) (ids : IdSource) {clock : Nat → Int}
    (steady : IsSteady clock) : Mirrors isConsentId { ids } { url, ids, clock } where
  opened := rfl
  calm := rfl
  distinct := Distinct.nil
  rows := rfl
  ids := rfl
  steady
  aged _ _ there := by cases there
  consent _ := rfl
  payment _ := rfl
  consentIds _ there := absurd rfl there
  paymentIds _ there := absurd rfl there
  filed _ _ _ := rfl

end Mirrors

/-- An operation inserts nothing under an id of the other sort, and writes what fits. -/
structure Operation.Suits (isConsentId : String → Prop) (op : Operation) : Prop where
  consent : ∀ id, op.newConsentId? = some id → isConsentId id
  payment : ∀ id, op.newPaymentId? = some id → ¬isConsentId id
  fits : op.fits = true

variable {isConsentId : String → Prop} {m : MemoryStore} {t : TableStore}

theorem Agree.replying {α : Type} {x : Except StoreError α × MemoryStore}
    {y : Except StoreError α × TableStore} (h : Agree isConsentId x y) (reply : α → Reply) :
    Agree isConsentId (replying reply x) (replying reply y) :=
  ⟨congrArg (Except.map reply) h.1, h.2⟩

theorem Mirrors.reading (h : Mirrors isConsentId m t) {α : Type} {x y : Except StoreError α}
    (same : y = x) (reply : α → Reply) :
    Agree isConsentId (x.map reply, m) ((t.reading y).map reply, t) := by
  rw [TableStore.reading_of_open h.opened, same]
  exact ⟨rfl, h⟩

theorem Mirrors.writing (h : Mirrors isConsentId m t) {α : Type}
    {x : Except StoreError α × MemoryStore} {y : Except StoreError α × TableStore}
    (agree : Agree isConsentId x y) : Agree isConsentId x (t.writing y) := by
  rw [TableStore.writing_of_open h.opened]
  exact agree

/-- Stores that hold the same records answer an operation alike, and hold the same records again. -/
theorem Mirrors.perform (h : Mirrors isConsentId m t) {op : Operation}
    (suits : op.Suits isConsentId) : Agree isConsentId (op.perform m) (op.perform t) := by
  have reads := ((MemoryStore.isCalm_iff m).mp h.calm).1
  cases op with
  | authorisation id =>
    have found : m.authorisation id = .ok (m.findAuthorisation id) := by
      rw [MemoryStore.authorisation, reads]
    exact h.reading ((h.authorisation id).trans found.symm) _
  | authorisationsOf parentId p =>
    have found : m.authorisationsOf parentId p = .ok (m.siblings parentId p) := by
      rw [MemoryStore.authorisationsOf, reads]
    exact h.reading ((h.siblings parentId p).trans found.symm) _
  | insertAuthorisation d => exact (h.insertAuthorisation d).replying _
  | updateAuthorisation id version u => exact (h.updateAuthorisation id version suits.fits).replying _
  | consent id => exact h.reading (congrArg Except.ok (h.consent id)) _
  | insertConsent d => exact (h.insertConsent (suits.consent d.id rfl)).replying _
  | setConsentStatus id st => exact (h.writing (h.setConsentStatus id st)).replying _
  | payment id => exact h.reading (h.payment id) _
  | insertPayment p => exact (h.insertPayment (suits.payment p.id rfl)).replying _
  | saveOrder id o => exact (h.saveOrder id o).replying _
  | setPaymentStatus id st => exact (h.writing (h.setPaymentStatus id st)).replying _

theorem answers_eq (ops : List Operation) (h : Mirrors isConsentId m t)
    (suits : ∀ op ∈ ops, op.Suits isConsentId) : answers m ops = answers t ops := by
  induction ops generalizing m t with
  | nil => rfl
  | cons op ops ih =>
    obtain ⟨now, later⟩ := List.forall_mem_cons.mp suits
    obtain ⟨answer, after⟩ := h.perform now
    simp only [answers, answer, ih after later]

/-- A new store in memory and a new store of tables give the same answers to the same operations, if
no consent has the id of a payment, every challenge fits its column, and the clock by which the tables
order authorisations is never set back. -/
theorem memory_answers_like_tables (url : String) (ids : IdSource) (clock : Nat → Int)
    (steady : IsSteady clock) (ops : List Operation)
    (apart : ∀ id ∈ ops.filterMap Operation.newConsentId?,
      id ∉ ops.filterMap Operation.newPaymentId?)
    (fits : ∀ op ∈ ops, op.fits = true) :
    answers ({ ids } : MemoryStore) ops = answers ({ url, ids, clock } : TableStore) ops := by
  refine answers_eq ops (.empty (· ∈ ops.filterMap Operation.newConsentId?) url ids steady)
    fun op there => ?_
  refine ⟨fun id consent => ?_, fun id payment shared => ?_, fits op there⟩
  · exact List.mem_filterMap.mpr ⟨op, there, consent⟩
  · exact apart id shared (List.mem_filterMap.mpr ⟨op, there, payment⟩)

theorem bookkeeping_answered_alike :
    (∀ id ∈ Samples.bookkeeping.filterMap Operation.newConsentId?,
      id ∉ Samples.bookkeeping.filterMap Operation.newPaymentId?) ∧
      (∀ op ∈ Samples.bookkeeping, op.fits = true) ∧
      IsSteady (fun n => (n / 2 : Nat)) ∧
      answers ({} : MemoryStore) Samples.bookkeeping =
        answers ({ url := "sqlite::memory:", clock := fun n => (n / 2 : Nat) } : TableStore)
          Samples.bookkeeping := by
  have steady : IsSteady fun n => (n / 2 : Nat) := fun k n le =>
    Int.ofNat_le.mpr (Nat.div_le_div_right le)
  exact ⟨by decide, by decide, steady,
    memory_answers_like_tables _ _ _ steady _ (by decide) (by decide)⟩

end Store

end StrongAuth
